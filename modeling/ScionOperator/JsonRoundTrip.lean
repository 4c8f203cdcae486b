import ScionOperator.Json

/-!
# JSON Round Trip

What the printers of `Json` write, its reader reads back: whatever the layout, a printed
value followed by anything that does not continue a number is read as that value and that
rest. The proof follows the value: each kind of value has its own reading lemma, and
arrays and objects are read item by item by induction on their lists.

## Main results

* `Value.ind`: induction over values, with the items of a list as hypotheses.
* `scanString_quote`: a printed string reads back.
* `readsBack`: **a printed value reads back, in every layout.**
* `unmarshal_print`, `decodeFirst_marshal`: the same for whole documents and for request
  bodies.
-/

namespace Json

open Text

/-! ### White space -/

/-- Leading white space is skipped. -/
@[simp] theorem skipBlank_append {w s : Str} (hw : ∀ c ∈ w, isBlank c = true) :
    skipBlank (w ++ s) = skipBlank s :=
  List.dropWhile_append_of_pos hw

/-- Nothing is skipped before another character. -/
theorem skipBlank_cons {c : Char} {s : Str} (hc : isBlank c = false) :
    skipBlank (c :: s) = c :: s := by
  rw [skipBlank, List.dropWhile_cons_of_neg]
  simp [hc]

/-- White space alone. -/
theorem skipBlank_eq_nil {w : Str} (hw : ∀ c ∈ w, isBlank c = true) : skipBlank w = [] := by
  simpa [skipBlank] using hw

/-! ### Strings -/

/-- Four printed hexadecimal digits read back. -/
theorem hex4_hexDigit {n : ℕ} (hn : n < 65536) :
    hex4 (hexDigit (n / 4096 % 16)) (hexDigit (n / 256 % 16)) (hexDigit (n / 16 % 16))
      (hexDigit (n % 16)) = n := by
  have hval : ∀ m, hexVal (hexDigit (m % 16)) = m % 16 := fun m =>
    (hexVal_hexDigit (Nat.mod_lt m (by omega))).2
  rw [hex4, hval, hval, hval, hval]
  omega

/-- A `\u` escape reads as its code point. -/
theorem scanCodes_escapeCode {n : ℕ} (hn : n < 65536) (s : Str) :
    scanCodes (escapeCode n ++ s) = (scanCodes s).map fun (cs, r) => (n :: cs, r) := by
  have hhex : ∀ m, isHex (hexDigit (m % 16)) = true := fun m =>
    (hexVal_hexDigit (Nat.mod_lt m (by omega))).1
  rw [escapeCode]
  simp only [List.cons_append, List.nil_append]
  rw [scanCodes, if_neg (by decide), if_pos rfl]
  simp only [hhex, Bool.and_self, if_true, hex4_hexDigit hn]

/-- The closing quote ends a string. -/
theorem scanCodes_quote (s : Str) : scanCodes ('"' :: s) = some ([], s) := by
  rw [scanCodes.eq_def]
  rfl

/-- A character that needs no escape stands for itself. -/
theorem scanCodes_plain {c : Char} (hq : c ≠ '"') (hb : c ≠ '\\') (hc : ¬ c.toNat < 32)
    (s : Str) :
    scanCodes (c :: s) = (scanCodes s).map fun (cs, r) => (c.toNat :: cs, r) := by
  rw [scanCodes.eq_def]
  simp only [if_neg hq, if_neg hb, if_neg hc]

/-- A one-letter escape. -/
theorem scanCodes_unescape {e x : Char} (he : unescape e = some x) (s : Str) :
    scanCodes ('\\' :: e :: s) = (scanCodes s).map fun (cs, r) => (x.toNat :: cs, r) := by
  have hu : e ≠ 'u' := by
    rintro rfl
    simp [unescape] at he
  rw [scanCodes, if_neg (by decide), if_pos rfl]
  · simp only [he]
  · exact fun _ _ _ _ _ hu' => absurd hu' hu

/-- A printed character reads as its code point. -/
theorem scanCodes_escapeChar (c : Char) (s : Str) :
    scanCodes (escapeChar c ++ s) = (scanCodes s).map fun (cs, r) => (c.toNat :: cs, r) := by
  have hof : ∀ n : ℕ, c.toNat = n → Char.ofNat n = c := by
    rintro n rfl
    exact Char.ofNat_toNat c
  rw [escapeChar]
  split_ifs with h1 h2 h3 h4 h5 h6 h7
  · refine scanCodes_unescape ?_ s
    rcases h1 with rfl | rfl <;> decide
  · rw [← hof 8 h2]
    exact scanCodes_unescape (by decide) s
  · rw [← hof 12 h3]
    exact scanCodes_unescape (by decide) s
  · rw [h4]
    exact scanCodes_unescape (by decide) s
  · rw [h5]
    exact scanCodes_unescape (by decide) s
  · rw [h6]
    exact scanCodes_unescape (by decide) s
  · refine scanCodes_escapeCode ?_ s
    rcases h7 with h | rfl | rfl | rfl | h | h
    all_goals first
      | omega
      | decide
  · push Not at h1 h7
    exact scanCodes_plain h1.1 h1.2 (by omega) s

/-- Characters are no halves of surrogate pairs. -/
theorem charOf_toNat (c : Char) : charOf c.toNat = c := by
  have hvalid : c.toNat < 0xD800 ∨ 0xDFFF < c.toNat ∧ c.toNat < 0x110000 := c.valid
  rw [charOf, if_neg, Char.ofNat_toNat]
  simp only [isSurrogate, Bool.and_eq_true, decide_eq_true_eq]
  omega

/-- The code points of characters decode to them. -/
theorem decodeCodes_map_toNat (s : Str) : decodeCodes (s.map Char.toNat) = s := by
  induction s with
  | nil => rfl
  | cons c s ih =>
      cases s with
      | nil => simp [decodeCodes, charOf_toNat]
      | cons d s =>
          have hvalid : c.toNat < 0xD800 ∨ 0xDFFF < c.toNat ∧ c.toNat < 0x110000 := c.valid
          rw [List.map_cons, List.map_cons, decodeCodes, if_neg (by omega), charOf_toNat,
            ← List.map_cons, ih]

/-- **A printed string reads back.** -/
theorem scanString_quote (s r : Str) :
    scanString (s.flatMap escapeChar ++ '"' :: r) = some (s, r) := by
  have hcodes : scanCodes (s.flatMap escapeChar ++ '"' :: r) = some (s.map Char.toNat, r) := by
    induction s with
    | nil => exact scanCodes_quote r
    | cons c s ih =>
        rw [List.flatMap_cons, List.append_assoc, scanCodes_escapeChar, ih]
        rfl
  rw [scanString, hcodes]
  simp only [Option.map_some, decodeCodes_map_toNat]

/-! ### Values -/

/-- Induction over values: an array or an object may assume the property of what it
holds. -/
@[elab_as_elim]
theorem Value.ind {P : Value → Prop} (null : P .null) (bool : ∀ b, P (.bool b))
    (num : ∀ n, P (.num n)) (str : ∀ s, P (.str s))
    (arr : ∀ vs, (∀ v ∈ vs, P v) → P (.arr vs))
    (obj : ∀ ms, (∀ m ∈ ms, P m.2) → P (.obj ms)) (v : Value) : P v :=
  @Value.rec P (fun vs => ∀ v ∈ vs, P v) (fun ms => ∀ m ∈ ms, P m.2) (fun m => P m.2)
    null bool num str arr obj
    (by simp) (fun v vs hv hvs => by simpa using ⟨hv, hvs⟩)
    (by simp) (fun m ms hm hms => by simpa using ⟨hm, fun a b h => hms (a, b) h⟩)
    (fun _ _ h => h) v

variable {L : Layout}

/-- A number starts with a digit or a sign. -/
theorem NumLit.head (n : NumLit) :
    ∃ c t, n.text = c :: t ∧ (c.isDigit = true ∨ c = '-') := by
  have hscan : scanNumber n.text = some (n.text, []) := by simpa [isNumber] using n.valid
  rcases htext : n.text with _ | ⟨c, t⟩
  · rw [htext] at hscan
    cases hscan
  · refine ⟨c, t, rfl, ?_⟩
    rw [htext, scanNumber] at hscan
    split_ifs at hscan with hc
    · exact .inr hc
    · obtain ⟨-, d, hd, hdigit⟩ := scanUnsigned_append hscan endsNumber_nil
      obtain rfl : c = d := by simpa using hd
      exact .inl hdigit

/-- A character a value may start with. -/
def startsValue (c : Char) : Bool :=
  c.isDigit || c ∈ ['-', 'n', 't', 'f', '"', '[', '\x7b']

/-- A printed value starts with such a character. -/
theorem printValue_head (d : ℕ) (v : Value) :
    ∃ c t, printValue L d v = c :: t ∧ startsValue c = true := by
  cases v with
  | null => exact ⟨_, _, rfl, by decide⟩
  | bool b => cases b <;> exact ⟨_, _, rfl, by decide⟩
  | num n =>
      obtain ⟨c, t, ht, hc⟩ := n.head
      refine ⟨c, t, ht, ?_⟩
      rcases hc with hc | rfl
      · simp [startsValue, hc]
      · decide
  | str s => exact ⟨_, _, rfl, by decide⟩
  | arr vs => cases vs <;> exact ⟨_, _, by rw [printValue], by decide⟩
  | obj ms => rcases ms with _ | ⟨⟨k, v⟩, ms⟩ <;> exact ⟨_, _, by rw [printValue], by decide⟩

/-- A character that starts a value is not white space and closes nothing. -/
theorem startsValue_ne {c : Char} (h : startsValue c = true) :
    isBlank c = false ∧ c ≠ ']' ∧ c ≠ '\x7d' := by
  have hne : ∀ e, startsValue e = false → c ≠ e := by
    rintro e he rfl
    rw [h] at he
    exact absurd he (by decide)
  refine ⟨?_, hne _ (by decide), hne _ (by decide)⟩
  simp [isBlank, hne ' ' (by decide), hne '\t' (by decide), hne '\n' (by decide),
    hne '\r' (by decide)]

/-! ### Reading back what was printed -/

/-- White space before a value is skipped. -/
theorem parseValue_blank {w s : Str} (hw : ∀ c ∈ w, isBlank c = true) (fuel : ℕ) :
    parseValue fuel (w ++ s) = parseValue fuel s := by
  cases fuel with
  | zero => rfl
  | succ fuel => rw [parseValue, parseValue, skipBlank_append hw]

/-- The value `v` reads back in every layout, from any depth, before any text that does
not continue a number. -/
def ReadsBack (L : Layout) (v : Value) : Prop :=
  ∀ (d fuel : ℕ) (r : Str), EndsNumber r → (printValue L d v).length ≤ fuel →
    parseValue fuel (printValue L d v ++ r) = some (v, r)

/-- A scalar reads back with any fuel at all. -/
theorem readsBack_scalar {v : Value}
    (h : ∀ d, ∃ c t, printValue L d v = c :: t ∧ isBlank c = false ∧ c ≠ '[' ∧ c ≠ '\x7b' ∧
      ∀ r, EndsNumber r → parseScalar (c :: t ++ r) = some (v, r)) : ReadsBack L v := by
  intro d fuel r hr hfuel
  obtain ⟨c, t, ht, hblank, harr, hobj, hscalar⟩ := h d
  rw [ht] at hfuel ⊢
  simp only [List.length_cons] at hfuel
  obtain ⟨fuel, rfl⟩ : ∃ k, fuel = k + 1 := Nat.exists_eq_add_one_of_ne_zero (by omega)
  rw [parseValue, List.cons_append, skipBlank_cons hblank, ← List.cons_append]
  split
  · next heq => exact absurd (List.cons.inj heq).1 harr
  · next heq => exact absurd (List.cons.inj heq).1 hobj
  · exact hscalar r hr

/-- Numbers read back. -/
theorem readsBack_num (n : NumLit) : ReadsBack L (.num n) := by
  refine readsBack_scalar fun d => ?_
  obtain ⟨c, t, ht, hc⟩ := n.head
  have hne : ∀ e, e.isDigit = false → e ≠ '-' → c ≠ e := by
    rintro e he hdash rfl
    rcases hc with hc | rfl
    · rw [hc] at he
      exact absurd he (by decide)
    · exact hdash rfl
  refine ⟨c, t, ht, ?_, hne _ (by decide) (by decide), hne _ (by decide) (by decide), ?_⟩
  · simp [isBlank, hne ' ' (by decide), hne '\t' (by decide), hne '\n' (by decide),
      hne '\r' (by decide)]
  · intro r hr
    have hnumber : scanNumber (c :: t ++ r) = some (n.text, r) := by
      rw [← ht]
      exact scanNumber_append (by simpa [isNumber] using n.valid) hr
    rw [parseScalar.eq_def]
    split
    case h_5 =>
      split
      · next h =>
          obtain ⟨rfl, rfl⟩ := Prod.mk.inj (Option.some.inj (hnumber.symm.trans h))
          rfl
      · next h => rw [hnumber] at h; cases h
    -- no other scalar starts like a number
    all_goals
      next heq => exact absurd (List.cons.inj heq).1 (hne _ (by decide) (by decide))

/-- White space and punctuation end a number. -/
theorem endsNumber_append {w s : Str} (hw : ∀ c ∈ w, isBlank c = true) (hs : EndsNumber s) :
    EndsNumber (w ++ s) := by
  cases w with
  | nil => exact hs
  | cons c w =>
      intro e he
      obtain rfl : c = e := by simpa using he
      have hc := hw c (by simp)
      simp only [isBlank, Bool.or_eq_true, decide_eq_true_eq] at hc
      rcases hc with ((rfl | rfl) | rfl) | rfl <;> decide

/-- What follows an item ends a number. -/
theorem endsNumber_printItems (L : Layout) (d : ℕ) (vs : List Value) (r : Str) :
    EndsNumber (printItems L d vs ++ r) := by
  cases vs with
  | nil =>
      rw [printItems, List.append_assoc]
      exact endsNumber_append (L.newline_blank d) (by simp [EndsNumber])
  | cons v vs =>
      rw [printItems]
      simp [EndsNumber]

/-- What follows a member ends a number. -/
theorem endsNumber_printMembers (L : Layout) (d : ℕ) (ms : List (Str × Value)) (r : Str) :
    EndsNumber (printMembers L d ms ++ r) := by
  cases ms with
  | nil =>
      rw [printMembers, List.append_assoc]
      exact endsNumber_append (L.newline_blank d) (by simp [EndsNumber])
  | cons m ms =>
      rw [printMembers]
      simp [EndsNumber]

/-- How the items of an array are read: a value, and after a comma the other items. -/
theorem parseItems_eq_some {fuel : ℕ} {s r : Str} {vs : List Value} :
    parseItems (fuel + 1) s = some (vs, r) ↔
      ∃ v s₁, parseValue fuel s = some (v, s₁) ∧
        ((∃ s₂ vs', skipBlank s₁ = ',' :: s₂ ∧ parseItems fuel s₂ = some (vs', r) ∧
            vs = v :: vs') ∨
          (skipBlank s₁ = ']' :: r ∧ vs = [v])) := by
  constructor
  · intro h
    rw [parseItems] at h
    split at h
    · cases h
    next v s₁ hvalue =>
    refine ⟨v, s₁, hvalue, ?_⟩
    split at h
    · next s₂ hcomma =>
        obtain ⟨⟨vs', r'⟩, hrest, heq⟩ := Option.map_eq_some_iff.mp h
        obtain ⟨rfl, rfl⟩ := Prod.mk.inj heq
        exact .inl ⟨s₂, vs', hcomma, hrest, rfl⟩
    · next s₂ hclose =>
        obtain ⟨rfl, rfl⟩ := Prod.mk.inj (Option.some.inj h)
        exact .inr ⟨hclose, rfl⟩
    · cases h
  · rintro ⟨v, s₁, hvalue, ⟨s₂, vs', hcomma, hrest, rfl⟩ | ⟨hclose, rfl⟩⟩
    · simp [parseItems, hvalue, hcomma, hrest]
    · simp [parseItems, hvalue, hclose]

/-- How the members of an object are read: a key, a value, and after a comma the other
members. -/
theorem parseMembers_eq_some {fuel : ℕ} {s r : Str} {ms : List (Str × Value)} :
    parseMembers (fuel + 1) s = some (ms, r) ↔
      ∃ k v s₁ s₂ s₃ s₄, skipBlank s = '"' :: s₁ ∧ scanString s₁ = some (k, s₂) ∧
        skipBlank s₂ = ':' :: s₃ ∧ parseValue fuel s₃ = some (v, s₄) ∧
        ((∃ s₅ ms', skipBlank s₄ = ',' :: s₅ ∧ parseMembers fuel s₅ = some (ms', r) ∧
            ms = (k, v) :: ms') ∨
          (skipBlank s₄ = '\x7d' :: r ∧ ms = [(k, v)])) := by
  constructor
  · intro h
    rw [parseMembers] at h
    split at h
    on_goal 2 => cases h
    next s₁ hquote =>
    split at h
    · cases h
    next k s₂ hkey =>
    split at h
    on_goal 2 => cases h
    next s₃ hcolon =>
    split at h
    · cases h
    next v s₄ hvalue =>
    refine ⟨k, v, s₁, s₂, s₃, s₄, hquote, hkey, hcolon, hvalue, ?_⟩
    split at h
    · next s₅ hcomma =>
        obtain ⟨⟨ms', r'⟩, hrest, heq⟩ := Option.map_eq_some_iff.mp h
        obtain ⟨rfl, rfl⟩ := Prod.mk.inj heq
        exact .inl ⟨s₅, ms', hcomma, hrest, rfl⟩
    · next s₅ hclose =>
        obtain ⟨rfl, rfl⟩ := Prod.mk.inj (Option.some.inj h)
        exact .inr ⟨hclose, rfl⟩
    · cases h
  · rintro ⟨k, v, s₁, s₂, s₃, s₄, hquote, hkey, hcolon, hvalue, hrest⟩
    rcases hrest with ⟨s₅, ms', hcomma, hrest, rfl⟩ | ⟨hclose, rfl⟩
    · simp [parseMembers, hquote, hkey, hcolon, hvalue, hcomma, hrest]
    · simp [parseMembers, hquote, hkey, hcolon, hvalue, hclose]

/-- The items of an array read back, the first after any white space. -/
theorem parseItems_print {vs : List Value} {v : Value} (hv : ReadsBack L v)
    (hvs : ∀ u ∈ vs, ReadsBack L u) (d fuel : ℕ) (r : Str)
    (hfuel : (printValue L (d + 1) v ++ printItems L d vs).length ≤ fuel) :
    parseItems fuel (L.newline (d + 1) ++ printValue L (d + 1) v ++ printItems L d vs ++ r) =
      some (v :: vs, r) := by
  induction vs generalizing v fuel with
  | nil =>
      simp only [printItems, List.length_append, List.length_cons, List.length_nil] at hfuel
      obtain ⟨fuel, rfl⟩ : ∃ k, fuel = k + 1 :=
        Nat.exists_eq_add_one_of_ne_zero (by omega)
      have hread := hv (d + 1) fuel _ (endsNumber_printItems L d [] r) (by omega)
      rw [List.append_assoc, List.append_assoc]
      refine parseItems_eq_some.mpr ⟨v, _,
        (parseValue_blank (L.newline_blank _) fuel).trans hread, .inr ⟨?_, rfl⟩⟩
      rw [printItems, List.append_assoc, skipBlank_append (L.newline_blank d)]
      exact skipBlank_cons (by decide)
  | cons u us ih =>
      simp only [printItems, List.length_append, List.length_cons] at hfuel
      obtain ⟨fuel, rfl⟩ : ∃ k, fuel = k + 1 :=
        Nat.exists_eq_add_one_of_ne_zero (by omega)
      have hread := hv (d + 1) fuel _ (endsNumber_printItems L d (u :: us) r) (by omega)
      have hrest := ih (hvs u (by simp)) (fun w hw => hvs w (by simp [hw])) fuel (by
        simp only [List.length_append]
        omega)
      rw [List.append_assoc, List.append_assoc]
      refine parseItems_eq_some.mpr ⟨v, _,
        (parseValue_blank (L.newline_blank _) fuel).trans hread, .inl ⟨_, _, ?_, hrest, rfl⟩⟩
      rw [printItems, List.cons_append]
      exact skipBlank_cons (by decide)

/-- A printed key reads back, after any white space. -/
theorem scanString_printKey (L : Layout) (d : ℕ) (k rest : Str) :
    ∃ s, skipBlank (L.newline d ++ quote k ++ rest) = '"' :: s ∧
      scanString s = some (k, rest) := by
  refine ⟨k.flatMap escapeChar ++ '"' :: rest, ?_, scanString_quote k rest⟩
  rw [List.append_assoc, skipBlank_append (L.newline_blank d), quote, List.cons_append,
    List.cons_append, skipBlank_cons (by decide), List.append_assoc, List.singleton_append]

/-- The members of an object read back, the first after any white space. -/
theorem parseMembers_print {ms : List (Str × Value)} {k : Str} {v : Value} (hv : ReadsBack L v)
    (hms : ∀ m ∈ ms, ReadsBack L m.2) (d fuel : ℕ) (r : Str)
    (hfuel : (quote k ++ printValue L (d + 1) v ++ printMembers L d ms).length ≤ fuel) :
    parseMembers fuel (L.newline (d + 1) ++ quote k ++ ':' :: L.space ++
        printValue L (d + 1) v ++ printMembers L d ms ++ r) =
      some ((k, v) :: ms, r) := by
  induction ms generalizing k v fuel with
  | nil =>
      simp only [printMembers, List.length_append, List.length_cons, List.length_nil] at hfuel
      obtain ⟨fuel, rfl⟩ : ∃ k, fuel = k + 1 :=
        Nat.exists_eq_add_one_of_ne_zero (by omega)
      have hread := hv (d + 1) fuel _ (endsNumber_printMembers L d [] r) (by omega)
      obtain ⟨s, hquote, hkey⟩ := scanString_printKey L (d + 1) k
        (':' :: L.space ++ printValue L (d + 1) v ++ printMembers L d [] ++ r)
      simp only [List.append_assoc] at hquote hkey ⊢
      refine parseMembers_eq_some.mpr ⟨k, v, s, _, _, _, hquote, hkey,
        skipBlank_cons (by decide), (parseValue_blank L.space_blank fuel).trans hread,
        .inr ⟨?_, rfl⟩⟩
      rw [printMembers, List.append_assoc, skipBlank_append (L.newline_blank _)]
      exact skipBlank_cons (by decide)
  | cons m ms ih =>
      obtain ⟨k', v'⟩ := m
      simp only [printMembers, List.length_append, List.length_cons] at hfuel
      obtain ⟨fuel, rfl⟩ : ∃ k, fuel = k + 1 :=
        Nat.exists_eq_add_one_of_ne_zero (by omega)
      have hread := hv (d + 1) fuel _ (endsNumber_printMembers L d ((k', v') :: ms) r) (by omega)
      have hrest := ih (k := k') (hms (k', v') (by simp)) (fun w hw => hms w (by simp [hw]))
        fuel (by
          simp only [List.length_append]
          omega)
      obtain ⟨s, hquote, hkey⟩ := scanString_printKey L (d + 1) k
        (':' :: L.space ++ printValue L (d + 1) v ++ printMembers L d ((k', v') :: ms) ++ r)
      simp only [List.append_assoc] at hquote hkey ⊢
      refine parseMembers_eq_some.mpr ⟨k, v, s, _, _, _, hquote, hkey,
        skipBlank_cons (by decide), (parseValue_blank L.space_blank fuel).trans hread,
        .inl ⟨_, _, ?_, hrest, rfl⟩⟩
      rw [printMembers, List.cons_append]
      exact skipBlank_cons (by decide)

/-- **A printed value reads back, in every layout.** -/
theorem readsBack (L : Layout) (v : Value) : ReadsBack L v := by
  induction v using Value.ind with
  | null =>
      exact readsBack_scalar fun d =>
        ⟨_, _, rfl, by decide, by decide, by decide, fun r _ => rfl⟩
  | bool b =>
      cases b
      all_goals
        exact readsBack_scalar fun d =>
          ⟨_, _, rfl, by decide, by decide, by decide, fun r _ => rfl⟩
  | num n => exact readsBack_num n
  | str s =>
      refine readsBack_scalar fun d => ⟨'"', s.flatMap escapeChar ++ ['"'], rfl, by decide,
        by decide, by decide, fun r _ => ?_⟩
      rw [List.cons_append, parseScalar.eq_def]
      simp only [List.append_assoc, List.singleton_append, scanString_quote, Option.map_some]
  | arr vs ih =>
      intro d fuel r _ hfuel
      cases vs with
      | nil =>
          obtain ⟨fuel, rfl⟩ := Nat.exists_eq_add_one_of_ne_zero
            (Nat.ne_of_gt (Nat.lt_of_lt_of_le (by simp [printValue]) hfuel))
          rfl
      | cons v vs =>
          rw [printValue] at hfuel ⊢
          simp only [List.length_cons, List.length_append] at hfuel
          obtain ⟨fuel, rfl⟩ := Nat.exists_eq_add_one_of_ne_zero (show fuel ≠ 0 by omega)
          have hitems := parseItems_print (ih v (by simp))
            (fun u (hu : u ∈ vs) => ih u (by simp [hu]))
            d fuel r (by simp only [List.length_append]; omega)
          obtain ⟨c, t, ht, hc⟩ := printValue_head (L := L) (d + 1) v
          obtain ⟨hblank, hne, -⟩ := startsValue_ne hc
          rw [List.cons_append, parseValue, skipBlank_cons (by decide)]
          simp only [hitems]
          rw [List.append_assoc, List.append_assoc, skipBlank_append (L.newline_blank _), ht,
            List.cons_append, skipBlank_cons hblank]
          split
          · next heq => exact absurd (List.cons.inj heq).1 hne
          · rfl
  | obj ms ih =>
      intro d fuel r _ hfuel
      rcases ms with _ | ⟨⟨k, v⟩, ms⟩
      · obtain ⟨fuel, rfl⟩ := Nat.exists_eq_add_one_of_ne_zero
          (Nat.ne_of_gt (Nat.lt_of_lt_of_le (by simp [printValue]) hfuel))
        rfl
      · rw [printValue] at hfuel ⊢
        simp only [List.length_cons, List.length_append] at hfuel
        obtain ⟨fuel, rfl⟩ := Nat.exists_eq_add_one_of_ne_zero (show fuel ≠ 0 by omega)
        have hmembers := parseMembers_print (k := k) (ih (k, v) (by simp))
          (fun m (hm : m ∈ ms) => ih m (by simp [hm])) d fuel r
          (by simp only [List.length_append]; omega)
        rw [List.cons_append, parseValue, skipBlank_cons (by decide)]
        simp only [hmembers]
        simp only [List.append_assoc, skipBlank_append (L.newline_blank _)]
        rw [quote, List.cons_append, List.cons_append, skipBlank_cons (by decide)]
        rfl

/-- A printed document reads back, with white space after it. -/
theorem unmarshal_print {v : Value} (hv : v.depth ≤ maxDepth) {w : Str}
    (hw : ∀ c ∈ w, isBlank c = true) : unmarshal (printValue L 0 v ++ w) = some v := by
  have hend : EndsNumber w := by
    simpa using endsNumber_append hw endsNumber_nil
  rw [unmarshal, readsBack L v 0 _ w hend (by simp only [List.length_append]; omega)]
  simp [skipBlank_eq_nil hw, hv]

/-- A printed request body reads back if it is within the limit. -/
theorem decodeFirst_marshal {v : Value} (hv : v.depth ≤ maxDepth) (limit : ℕ) :
    decodeFirst limit (marshal v) =
      if byteLength (marshal v) ≤ limit then some v else none := by
  have hread : parseValue ((marshal v).length + 1) (marshal v ++ []) = some (v, []) :=
    readsBack .compact v 0 _ [] endsNumber_nil (Nat.le_succ _)
  rw [List.append_nil] at hread
  rw [decodeFirst, hread]
  have hnil : byteLength [] = 0 := rfl
  by_cases hlen : byteLength (marshal v) ≤ limit
  · cases v <;> simp [hnil, hlen, hv]
  · cases v <;> simp [hnil, hlen]

end Json
