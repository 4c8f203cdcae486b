import ScionOperator.RegistrarServer

/-!
# The Body of a PUT

A PUT replaces every managed gateway, so its body has to be what it says: one JSON object, of
at most a megabyte, that maps names to gateways. The handler reads it with a streaming decoder
that allows no unknown fields. The decoder stops after the first value and takes `null` for any
map and any struct, so that some bodies outside the grammar are taken for a set of gateways.

## Main results

* `isSome_decodeSIG_iff`: the values that are read as a gateway.
* `isSome_decodeBody_iff`: the bodies that are read as a set of gateways.
* `rejectsMalformed_iff`: **every body outside the grammar is rejected, except the lenient
  ones**: `null`, members that are `null`, and anything after the object.
-/

namespace ScionOperator.Registrar

open Text Json GoMap

/-! ### The grammar -/

/-- A field of a gateway: one of the two names up to case, with a string or `null`. -/
def IsGatewayField (f : Str × Value) : Prop :=
  (foldName ctrlAddrKey = foldName f.1 ∨ foldName dataAddrKey = foldName f.1) ∧
    (f.2 = .null ∨ ∃ t, f.2 = .str t)

/-- An object that is a gateway. -/
def IsGateway (v : Value) : Prop :=
  ∃ fs, v = .obj fs ∧ ∀ f ∈ fs, IsGatewayField f

/-- The first value of a body, with what follows it. -/
def FirstValue (body : Str) (v : Value) (rest : Str) : Prop :=
  parseValue (body.length + 1) body = some (v, rest)

/-- The grammar of a body: up to white space around it, one object of at most a megabyte that
maps names to gateways. -/
def WellFormed (body : Str) : Prop :=
  ∃ ms rest, FirstValue body (.obj ms) rest ∧ skipBlank rest = [] ∧
    byteLength (skipBlank body) - byteLength rest ≤ maxBodyBytes ∧ ∀ m ∈ ms, IsGateway m.2

/-- How many bytes of a body are read for its first value: the value and the white space before
it, and one byte more if that is what shows where the value ends. -/
def bytesRead (body : Str) (v : Value) (rest : Str) : ℕ :=
  byteLength body - byteLength rest +
    match v with
    | .arr _ | .obj _ => 0
    | _ => if rest = [] then 0 else 1

/-- The bodies outside the grammar that a streaming decoder takes: within the limit, the first
value is `null`, or an object of gateways and `null`s with a `null` in it or with more than
white space after it. -/
def Lenient (body : Str) : Prop :=
  ∃ v rest, FirstValue body v rest ∧ bytesRead body v rest ≤ maxBodyBytes ∧
    (v = .null ∨ ∃ ms, v = .obj ms ∧ (∀ m ∈ ms, m.2 = .null ∨ IsGateway m.2) ∧
      ((∃ m ∈ ms, m.2 = .null) ∨ skipBlank rest ≠ []))

/-! ### What the decoder takes -/

/-- A member is stored in a gateway exactly if it is one of its fields. -/
theorem isSome_decodeMember_iff {s : SIG} {f : Str × Value} :
    (decodeMember sigFields true s f).isSome = true ↔ IsGatewayField f := by
  have hstring : ∀ (v : Value) (old : Str),
      (decodeString v old).isSome = true ↔ v = .null ∨ ∃ t, v = .str t := by
    intro v old
    cases v <;> simp [decodeString]
  rw [decodeMember, IsGatewayField]
  by_cases hctrl : foldName ctrlAddrKey = foldName f.1
  · simp [sigFields, hctrl, hstring]
  · by_cases hdata : foldName dataAddrKey = foldName f.1
    · simp [sigFields, hctrl, hdata, hstring]
    · simp [sigFields, hctrl, hdata]

/-- The values that are read as a gateway. -/
theorem isSome_decodeSIG_iff {v : Value} :
    (decodeSIG true v).isSome = true ↔ v = .null ∨ IsGateway v :=
  isSome_decodeStruct_iff fun _ _ => isSome_decodeMember_iff

/-- A gateway is not deep. -/
theorem IsGateway.depth_le {v : Value} (h : IsGateway v) : v.depth ≤ 1 := by
  obtain ⟨fs, rfl, hfs⟩ := h
  have hle : depthMembers fs ≤ 0 := by
    rw [depthMembers_le]
    intro f hf
    rcases (hfs f hf).2 with hnull | ⟨t, ht⟩
    · simp [hnull, Value.depth]
    · simp [ht, Value.depth]
  rw [Value.depth]
  omega

/-- The values that are read as a set of gateways. -/
theorem decodesMap_decodeSIG_iff {v : Value} :
    DecodesMap (decodeSIG true) v ↔
      v = .null ∨ ∃ ms, v = .obj ms ∧ ∀ m ∈ ms, m.2 = .null ∨ IsGateway m.2 := by
  simp only [decodesMap_iff, isSome_decodeSIG_iff]

/-- A set of gateways is not too deep. -/
theorem depth_le_of_decodesMap {v : Value} (h : DecodesMap (decodeSIG true) v) :
    v.depth ≤ maxDepth := by
  rcases decodesMap_decodeSIG_iff.mp h with rfl | ⟨ms, rfl, hms⟩
  · exact Nat.zero_le _
  · have hle : depthMembers ms ≤ 1 := by
      rw [depthMembers_le]
      intro m hm
      rcases hms m hm with hnull | hgw
      · rw [hnull]
        exact Nat.zero_le _
      · exact hgw.depth_le
    rw [Value.depth, maxDepth]
    omega

/-- The value a streaming decoder takes from a body. -/
theorem decodeFirst_eq_some_iff {body : Str} {v : Value} :
    decodeFirst maxBodyBytes body = some v ↔
      ∃ rest, FirstValue body v rest ∧ bytesRead body v rest ≤ maxBodyBytes ∧
        v.depth ≤ maxDepth := by
  simp only [decodeFirst, FirstValue, bytesRead]
  cases parseValue (body.length + 1) body with
  | none => simp
  | some p =>
      obtain ⟨w, rest⟩ := p
      simp only [Option.some.injEq, Prod.mk.injEq, Option.ite_none_right_eq_some]
      constructor
      · rintro ⟨⟨hlen, hdepth⟩, rfl⟩
        exact ⟨rest, ⟨rfl, rfl⟩, hlen, hdepth⟩
      · rintro ⟨_, ⟨rfl, rfl⟩, hlen, hdepth⟩
        exact ⟨⟨hlen, hdepth⟩, rfl⟩

/-- The bodies that are read as a set of gateways: those whose first value is one, within the
limit. -/
theorem isSome_decodeBody_iff {body : Str} :
    (decodeBody body).isSome = true ↔
      ∃ v rest, FirstValue body v rest ∧ bytesRead body v rest ≤ maxBodyBytes ∧
        DecodesMap (decodeSIG true) v := by
  have hbody : (decodeBody body).isSome = true ↔
      ∃ v, decodeFirst maxBodyBytes body = some v ∧ DecodesMap (decodeSIG true) v := by
    simp only [← exists_decodeMap_iff none, decodeBody, Option.isSome_iff_exists,
      Option.bind_eq_bind, Option.bind_eq_some_iff, Option.pure_def]
    constructor
    · rintro ⟨desired, v, hv, m, hm, -⟩
      exact ⟨v, hv, m, hm⟩
    · rintro ⟨v, hv, m, hm⟩
      exact ⟨_, v, hv, m, hm, rfl⟩
  simp only [hbody, decodeFirst_eq_some_iff]
  constructor
  · rintro ⟨v, ⟨rest, hfirst, hlen, -⟩, hmap⟩
    exact ⟨v, rest, hfirst, hlen, hmap⟩
  · rintro ⟨v, rest, hfirst, hlen, hmap⟩
    exact ⟨v, ⟨rest, hfirst, hlen, depth_le_of_decodesMap hmap⟩, hmap⟩

/-- White space before a value only adds to what is read. -/
theorem byteLength_skipBlank_le (s : Str) : byteLength (skipBlank s) ≤ byteLength s :=
  ((List.dropWhile_sublist isBlank).map Char.utf8Size).sum_le_sum fun _ _ => Nat.zero_le _

/-- **What the decoder takes outside the grammar**: exactly the lenient bodies. -/
theorem lenient_iff {body : Str} :
    Lenient body ↔ (decodeBody body).isSome = true ∧ ¬ WellFormed body := by
  rw [isSome_decodeBody_iff]
  constructor
  · rintro ⟨v, rest, hfirst, hlen, hv⟩
    refine ⟨⟨v, rest, hfirst, hlen, decodesMap_decodeSIG_iff.mpr (hv.imp_right ?_)⟩, ?_⟩
    · rintro ⟨ms, rfl, hms, -⟩
      exact ⟨ms, rfl, hms⟩
    · rintro ⟨ms', rest', hfirst', hblank, -, hms'⟩
      obtain ⟨rfl, rfl⟩ := Prod.mk.inj (Option.some.inj (hfirst.symm.trans hfirst'))
      rcases hv with hnull | ⟨ms, hobj, -, ⟨m, hm, hnull⟩ | hrest⟩
      · cases hnull
      · obtain rfl := Value.obj.inj hobj
        obtain ⟨fs, hfs, -⟩ := hms' m hm
        rw [hnull] at hfs
        cases hfs
      · exact hrest hblank
  · rintro ⟨⟨v, rest, hfirst, hlen, hmap⟩, hwf⟩
    refine ⟨v, rest, hfirst, hlen, (decodesMap_decodeSIG_iff.mp hmap).imp_right ?_⟩
    rintro ⟨ms, rfl, hms⟩
    refine ⟨ms, rfl, hms, ?_⟩
    by_contra hstrict
    push Not at hstrict
    obtain ⟨hnull, hblank⟩ := hstrict
    have hsize : byteLength (skipBlank body) - byteLength rest ≤ maxBodyBytes :=
      (Nat.sub_le_sub_right (byteLength_skipBlank_le body) _).trans hlen
    exact hwf ⟨ms, rest, hfirst, hblank, hsize, fun m hm => (hms m hm).resolve_left (hnull m hm)⟩

/-! ### What the handler does -/

/-- A request that was rejected as malformed: answered 400, with the file as it was and nothing
reloaded. -/
def Outcome.Rejected (o : Outcome) (file : Option Str) : Prop :=
  o.status = some .badRequest ∧ o.file = file ∧ o.reloaded = false

/-- A PUT keeps to the grammar: it changes the file only if its body is well formed, and is
rejected otherwise. -/
def RejectsMalformed (s : Server) (r : Request) (c : Conditions) (file : Option Str) : Prop :=
  ((handle s r c file).file ≠ file → WellFormed r.body) ∧
    (¬ WellFormed r.body → (handle s r c file).Rejected file)

/-- A PUT is rejected exactly if its body cannot be read. -/
theorem rejected_iff {s : Server} {r : Request} {c : Conditions} {file : Option Str}
    (hauth : s.authorizes r = true) (hput : r.method = .put) :
    (handle s r c file).Rejected file ↔ (decodeBody r.body).isSome = false := by
  rw [handle, if_pos hauth, sigs, hput]
  simp only [putSigs]
  cases decodeBody r.body with
  | none => simp [Outcome.Rejected, Outcome.status, httpError]
  | some desired =>
      -- whatever comes of a patch, it is not a 400
      simp only [Outcome.Rejected, Outcome.status, Option.isSome_some, Bool.true_eq_false,
        iff_false, not_and]
      intro hstatus
      split at hstatus
      · simp at hstatus
      · simp [httpError] at hstatus
      · split_ifs at hstatus <;> simp [httpError] at hstatus

/-- A lenient body is not rejected. -/
theorem not_lenient_of_rejectsMalformed {s : Server} {r : Request} {c : Conditions}
    {file : Option Str} (hauth : s.authorizes r = true) (hput : r.method = .put)
    (h : RejectsMalformed s r c file) : ¬ Lenient r.body := by
  intro hlenient
  obtain ⟨hsome, hwf⟩ := lenient_iff.mp hlenient
  rw [(rejected_iff hauth hput).mp (h.2 hwf)] at hsome
  cases hsome

/-- **The grammar of a PUT.** An authorized PUT keeps to the grammar exactly if its body is not
one of those a streaming decoder takes although they are outside of it. -/
theorem rejectsMalformed_iff (s : Server) (r : Request) (c : Conditions) (file : Option Str)
    (hauth : s.authorizes r = true) (hput : r.method = .put) :
    RejectsMalformed s r c file ↔ ¬ Lenient r.body := by
  refine ⟨not_lenient_of_rejectsMalformed hauth hput, fun hlenient => ?_⟩
  have hreject : ¬ WellFormed r.body → (handle s r c file).Rejected file := by
    intro hwf
    rw [rejected_iff hauth hput, ← Bool.not_eq_true]
    exact fun hsome => hlenient (lenient_iff.mpr ⟨hsome, hwf⟩)
  refine ⟨fun hchanged => ?_, hreject⟩
  by_contra hwf
  exact hchanged (hreject hwf).2.1

/-- A PUT with a body to the sample server. -/
def putOf (body : Str) : Request :=
  ⟨.put, bearer "secret".toList, body⟩

/-- A gateway with an unknown field is rejected. -/
theorem rejectsMalformed_of_unknown_field :
    RejectsMalformed sampleServer
      (putOf "\x7b\"n1\":\x7b\"probe_addr\":\"a\"\x7d\x7d".toList) ⟨none, false⟩
      (some sampleTopology) := by
  refine (rejectsMalformed_iff _ _ _ _ (by decide) rfl).mpr fun hlenient => ?_
  have hnone : (decodeBody (putOf
      "\x7b\"n1\":\x7b\"probe_addr\":\"a\"\x7d\x7d".toList).body).isSome = false := by
    decide +kernel
  rw [(lenient_iff.mp hlenient).1] at hnone
  cases hnone

/-- The body `null` removes every managed gateway, and so does an empty object with anything
after it. -/
theorem accepted_outside_grammar :
    (∀ body ∈ ["null".toList, "\x7b\x7d]".toList],
      (handle sampleServer (putOf body) ⟨none, false⟩ (some sampleTopology)).status =
          some .noContent ∧
        (managedSigs none "k8s-".toList (handle sampleServer (putOf body) ⟨none, false⟩
          (some sampleTopology)).file).map (fun m => m.toList) = some []) ∧
      ¬ RejectsMalformed sampleServer (putOf "null".toList) ⟨none, false⟩
        (some sampleTopology) ∧
      ¬ RejectsMalformed sampleServer (putOf "\x7b\x7d]".toList) ⟨none, false⟩
        (some sampleTopology) := by
  refine ⟨by decide +kernel, fun h => ?_, fun h => ?_⟩
  · exact not_lenient_of_rejectsMalformed (by decide) rfl h
      ⟨.null, [], rfl, by decide +kernel, .inl rfl⟩
  · exact not_lenient_of_rejectsMalformed (by decide) rfl h
      ⟨.obj [], [']'], rfl, by decide +kernel, .inr ⟨[], rfl, by simp, .inr (by decide)⟩⟩

end ScionOperator.Registrar
