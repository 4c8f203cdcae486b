import ScionOperator.JsonDecode
import ScionOperator.Policy

/-!
# Rendered Policies

The two files the agent writes for the gateway (`internal/agent/policy`): the routing
policy, a text with one rule a line, and the traffic policy, a JSON document. The grammar
of the routing policy is stated here as its reader: a line is cut at a `#`, what is left is
split into fields at white space, and a rule has exactly four of them,

    <action> <from-ia> <to-ia> <prefix>[,<prefix>...] [# comment]

## Main results

* `lineFields_ruleLine`: the fields of a rendered line are those it was rendered from.
* `parsePolicy_policyText`: a policy reads back as its rules, if something is accepted.
* `roundTrips_iff`: **the routing policy reads back as the intended rules exactly when the
  forbidden CIDRs leave something to accept**; otherwise its accept rules lack their last
  field.
-/

namespace ScionOperator

open Text Json Netip

/-! ### Rendering -/

/-- A line of the routing policy. -/
def ruleLine (action fromIA toIA nets : Str) : Str :=
  action ++ ' ' :: (fromIA ++ ' ' :: (toIA ++ ' ' :: nets))

/-- The action of the rules for what is announced. -/
def advertiseWord : Str :=
  "advertise".toList

/-- The action of the rules for what is accepted. -/
def acceptWord : Str :=
  "accept".toList

/-- Render the routing policy: for each remote, a rule for every net that is advertised to
it and one for everything that is accepted from it. -/
def renderRoutingPolicy (input : Input) : Except PrepareError Str := do
  let accepted ← prepare input
  pure (input.acceptISDASes.flatMap fun remote =>
    (input.advertisedNets.flatMap fun net =>
      ruleLine advertiseWord input.localIA remote net ++ ['\n']) ++
    (ruleLine acceptWord remote input.localIA (join ',' accepted) ++ ['\n']))

/-- An entry of the traffic policy: no static prefixes. -/
def trafficPolicyAS : Value :=
  .obj [("Nets".toList, .arr [])]

/-- The traffic policy document. -/
def trafficPolicyDoc (remotes : List Str) : Value :=
  let ases : GoMap Value := GoMap.insertAll ∅ (remotes.map fun r => (r, trafficPolicyAS))
  .obj [("ASes".toList, .obj ases.toList), ("ConfigVersion".toList, .num .one)]

/-- Render the traffic policy. -/
def renderTrafficPolicy (input : Input) : Except PrepareError Str := do
  let _ ← prepare input
  pure (marshalIndent 4 (trafficPolicyDoc input.acceptISDASes) ++ ['\n'])

/-! ### The grammar of the routing policy -/

/-- The actions of the routing policy language. -/
inductive Action
  | accept
  | reject
  | advertise
  | redistributeBGP
deriving DecidableEq

/-- A rule of a routing policy. -/
structure Rule where
  action : Action
  fromIA : Str
  toIA : Str
  nets : List Str
deriving DecidableEq

/-- Cut a line at the start of its comment. -/
def stripComment (line : Str) : Str :=
  line.takeWhile (· ≠ '#')

/-- The fields of a line without its comment. -/
def lineFields (line : Str) : List Str :=
  fields (stripComment line)

/-- Read an action. -/
def parseAction (word : Str) : Option Action :=
  if word = acceptWord then some .accept
  else if word = "reject".toList then some .reject
  else if word = advertiseWord then some .advertise
  else if word = "redistribute-bgp".toList then some .redistributeBGP
  else none

/-- Read the fields of a rule. -/
def parseFields : List Str → Option Rule
  | [action, fromIA, toIA, nets] =>
      (parseAction action).map fun a => ⟨a, fromIA, toIA, Text.split ',' nets⟩
  | _ => none

/-- Read a rule from a line. -/
def parseRule (line : Str) : Option Rule :=
  parseFields (lineFields line)

/-- Read a policy: every line that is not blank is a rule. -/
def parsePolicy (text : Str) : Option (List Rule) :=
  ((Text.split '\n' text).filter fun line => lineFields line ≠ []).mapM parseRule

/-! ### Fields of a rendered line -/

/-- A text that is one field of a line: not empty, without white space and comment. -/
def IsField (s : Str) : Prop :=
  s ≠ [] ∧ NoSpace s ∧ '#' ∉ s

instance (s : Str) : Decidable (IsField s) :=
  inferInstanceAs (Decidable (s ≠ [] ∧ NoSpace s ∧ '#' ∉ s))

/-- A field is the only field of its text. -/
theorem IsField.fields {s : Str} (h : IsField s) : Text.fields s = [s] :=
  fields_eq_singleton h.2.1 h.1

/-- A field contains no line break. -/
theorem IsField.not_mem_newline {s : Str} (h : IsField s) : '\n' ∉ s := by
  intro hmem
  have := h.2.1 _ hmem
  revert this
  decide

/-- A prefix is one field. -/
theorem isField_of_parsePrefix {s : Str} {p : Prefix} (h : parsePrefix s = some p) :
    IsField s :=
  ⟨ne_nil_of_parsePrefix h, noSpace_of_parsePrefix h, not_mem_of_parsePrefix h (by decide)⟩

/-- A joined list of IPv4 prefixes is one field, if there are any. -/
theorem isField_join {l : List Str} (hne : l ≠ []) (h : ∀ s ∈ l, ReadsAsIPv4 s) :
    IsField (join ',' l) := by
  have hfield : ∀ s ∈ l, IsField s := fun s hs => by
    obtain ⟨p, hp, -⟩ := h s hs
    exact isField_of_parsePrefix hp
  refine ⟨join_ne_nil hne fun s hs => (hfield s hs).1, fun c hc => ?_, fun hc => ?_⟩
  · rcases mem_join hc with rfl | ⟨s, hs, hcs⟩
    · decide
    · exact (hfield s hs).2.1 c hcs
  · rcases mem_join hc with hcomma | ⟨s, hs, hcs⟩
    · exact absurd hcomma (by decide)
    · exact (hfield s hs).2.2 hcs

/-- A text without `#` has no comment. -/
theorem stripComment_eq_self {s : Str} (h : '#' ∉ s) : stripComment s = s := by
  rw [stripComment, List.takeWhile_eq_self_iff]
  intro c hc
  have hne : c ≠ '#' := fun heq => h (heq ▸ hc)
  simp [hne]

/-- A comment starts at the same place after a text without `#`. -/
theorem stripComment_append {s t : Str} (h : '#' ∉ s) :
    stripComment (s ++ t) = s ++ stripComment t := by
  rw [stripComment, List.takeWhile_append_of_pos]
  · rfl
  · intro c hc
    have hne : c ≠ '#' := fun heq => h (heq ▸ hc)
    simp [hne]

/-- What follows a comment is part of it. -/
theorem stripComment_append_of_mem {s t : Str} (h : '#' ∈ s) :
    stripComment (s ++ t) = stripComment s := by
  obtain ⟨a, b, rfl⟩ := List.append_of_mem h
  induction a with
  | nil => simp [stripComment]
  | cons c a ih =>
      by_cases hc : c = '#'
      · simp [stripComment, hc]
      · simp only [stripComment, List.cons_append, List.takeWhile_cons, hc, ne_eq,
          not_false_eq_true, decide_true, if_true, List.cons.injEq, true_and]
        simpa [stripComment] using ih (by simp)

/-- A field stands apart from what follows it after a space. -/
theorem lineFields_cons {s : Str} (hs : IsField s) (t : Str) :
    lineFields (s ++ ' ' :: t) = s :: lineFields t := by
  have hspace : '#' ∉ s ++ [' '] := by simp [hs.2.2]
  rw [lineFields, show s ++ ' ' :: t = (s ++ [' ']) ++ t by simp, stripComment_append hspace,
    List.append_assoc, List.singleton_append, fields_append_cons _ _ (by decide), hs.fields]
  rfl

/-- A field as the whole rest of a line. -/
theorem lineFields_eq_singleton {s : Str} (hs : IsField s) : lineFields s = [s] := by
  rw [lineFields, stripComment_eq_self hs.2.2, hs.fields]

/-- The fields of a rendered line are those it was rendered from. -/
theorem lineFields_ruleLine {action fromIA toIA nets : Str} (ha : IsField action)
    (hf : IsField fromIA) (ht : IsField toIA) (hn : IsField nets) :
    lineFields (ruleLine action fromIA toIA nets) = [action, fromIA, toIA, nets] := by
  rw [ruleLine, lineFields_cons ha, lineFields_cons hf, lineFields_cons ht,
    lineFields_eq_singleton hn]

/-- The words for the two actions are fields. -/
theorem isField_words : IsField advertiseWord ∧ IsField acceptWord := by
  decide +kernel

/-! ### Reading a rendered policy back -/

/-- The lines of a rendered policy. -/
def policyLines (input : Input) (accepted : List Str) : List Str :=
  input.acceptISDASes.flatMap fun remote =>
    (input.advertisedNets.map fun net => ruleLine advertiseWord input.localIA remote net) ++
      [ruleLine acceptWord remote input.localIA (join ',' accepted)]

/-- A routing policy is rendered line by line. -/
theorem renderRoutingPolicy_eq_ok {input : Input} {text : Str} :
    renderRoutingPolicy input = .ok text ↔ ∃ accepted, prepare input = .ok accepted ∧
      text = (policyLines input accepted).flatMap fun line => line ++ ['\n'] := by
  simp only [renderRoutingPolicy, Result.bind_eq_ok, Result.pure_eq_ok]
  refine exists_congr fun accepted => and_congr_right fun _ => ?_
  rw [policyLines, List.flatMap_assoc, eq_comm]
  simp only [List.flatMap_append, List.flatMap_map, List.flatMap_singleton]

/-- The rules a policy is meant to express: for each remote what is advertised to it, one
net a rule, and what is accepted from it. -/
def intendedRules (input : Input) (accepted : List Str) : List Rule :=
  input.acceptISDASes.flatMap fun remote =>
    (input.advertisedNets.map fun net => ⟨.advertise, input.localIA, remote, [net]⟩) ++
      [⟨.accept, remote, input.localIA, accepted⟩]

/-- An input whose names are fields and whose nets are prefixes. -/
structure Input.Plain (input : Input) : Prop where
  localIA : IsField input.localIA
  remotes : ∀ r ∈ input.acceptISDASes, IsField r
  nets : ∀ n ∈ input.advertisedNets, ∃ p, parsePrefix n = some p

section Plain

variable {input : Input} {accepted : List Str}

/-- Each line is one of the two kinds. -/
theorem mem_policyLines {line : Str} : line ∈ policyLines input accepted ↔
    ∃ remote ∈ input.acceptISDASes,
      (∃ net ∈ input.advertisedNets, line = ruleLine advertiseWord input.localIA remote net) ∨
        line = ruleLine acceptWord remote input.localIA (join ',' accepted) := by
  simp only [policyLines, List.mem_flatMap, List.mem_append, List.mem_map, List.mem_singleton,
    eq_comm]

/-- Lines are not broken. -/
theorem not_mem_newline_of_mem_policyLines (h : input.Plain)
    (hacc : ∀ s ∈ accepted, ReadsAsIPv4 s) : ∀ line ∈ policyLines input accepted, '\n' ∉ line := by
  have hjoin : '\n' ∉ join ',' accepted := by
    intro hc
    rcases mem_join hc with hcomma | ⟨s, hs, hcs⟩
    · exact absurd hcomma (by decide)
    · obtain ⟨p, hp, -⟩ := hacc s hs
      exact (isField_of_parsePrefix hp).not_mem_newline hcs
  intro line hline
  obtain ⟨remote, hr, ⟨net, hn, rfl⟩ | rfl⟩ := mem_policyLines.mp hline
  · obtain ⟨p, hp⟩ := h.nets net hn
    simp [ruleLine, isField_words.1.not_mem_newline, h.localIA.not_mem_newline,
      (h.remotes remote hr).not_mem_newline, (isField_of_parsePrefix hp).not_mem_newline]
  · simp [ruleLine, isField_words.2.not_mem_newline, h.localIA.not_mem_newline,
      (h.remotes remote hr).not_mem_newline, hjoin]

/-- Reading a policy is reading its lines, as long as none of them is blank. -/
theorem parsePolicy_policyText (h : input.Plain) (hacc : ∀ s ∈ accepted, ReadsAsIPv4 s)
    (hblank : ∀ line ∈ policyLines input accepted, lineFields line ≠ []) :
    parsePolicy ((policyLines input accepted).flatMap fun line => line ++ ['\n']) =
      (policyLines input accepted).mapM parseRule := by
  have hsplit : (policyLines input accepted).flatMap (Text.split '\n') =
      policyLines input accepted := by
    conv_rhs => rw [← List.flatMap_singleton' (policyLines input accepted)]
    refine List.flatMap_congr fun line hline => ?_
    exact split_eq_singleton (not_mem_newline_of_mem_policyLines h hacc line hline)
  rw [parsePolicy, split_flatMap_terminated, hsplit, List.filter_append]
  have hfilter : (policyLines input accepted).filter (fun line => lineFields line ≠ []) =
      policyLines input accepted := by
    rw [List.filter_eq_self]
    exact fun line hline => by simpa using hblank line hline
  rw [hfilter, List.filter_cons_of_neg (by decide), List.filter_nil, List.append_nil]

/-- A rendered accept line, when something is accepted. -/
theorem lineFields_accept (h : input.Plain) (hacc : ∀ s ∈ accepted, ReadsAsIPv4 s)
    (hne : accepted ≠ []) {remote : Str} (hr : remote ∈ input.acceptISDASes) :
    lineFields (ruleLine acceptWord remote input.localIA (join ',' accepted)) =
      [acceptWord, remote, input.localIA, join ',' accepted] :=
  lineFields_ruleLine isField_words.2 (h.remotes remote hr) h.localIA (isField_join hne hacc)

/-- A rendered accept line, when nothing is accepted: its last field is missing. -/
theorem lineFields_accept_nil (h : input.Plain) {remote : Str}
    (hr : remote ∈ input.acceptISDASes) :
    lineFields (ruleLine acceptWord remote input.localIA (join ',' [])) =
      [acceptWord, remote, input.localIA] := by
  rw [ruleLine, lineFields_cons isField_words.2, lineFields_cons (h.remotes remote hr),
    lineFields_cons h.localIA]
  rfl

/-- A rendered advertise line. -/
theorem lineFields_advertise (h : input.Plain) {remote net : Str}
    (hr : remote ∈ input.acceptISDASes) (hn : net ∈ input.advertisedNets) :
    lineFields (ruleLine advertiseWord input.localIA remote net) =
      [advertiseWord, input.localIA, remote, net] := by
  obtain ⟨p, hp⟩ := h.nets net hn
  exact lineFields_ruleLine isField_words.1 h.localIA (h.remotes remote hr)
    (isField_of_parsePrefix hp)

/-- A policy reads back as its rules, if something is accepted. -/
theorem parsePolicy_eq_intendedRules (h : input.Plain) (hacc : ∀ s ∈ accepted, ReadsAsIPv4 s)
    (hne : accepted ≠ []) :
    parsePolicy ((policyLines input accepted).flatMap fun line => line ++ ['\n']) =
      some (intendedRules input accepted) := by
  have hsplit : Text.split ',' (join ',' accepted) = accepted := by
    refine split_join (fun s hs => ?_) hne
    obtain ⟨p, hp, -⟩ := hacc s hs
    exact not_mem_of_parsePrefix hp (by decide)
  rw [parsePolicy_policyText h hacc]
  · refine Result.mapM_flatMap_eq_some fun remote hr => ?_
    have hadvertise :
        (input.advertisedNets.map fun net => ruleLine advertiseWord input.localIA remote net).mapM
            parseRule =
          some (input.advertisedNets.map fun net =>
            ⟨.advertise, input.localIA, remote, [net]⟩) := by
      refine Result.mapM_map_eq_some fun net hn => ?_
      obtain ⟨p, hp⟩ := h.nets net hn
      rw [parseRule, lineFields_advertise h hr hn, parseFields,
        split_eq_singleton (not_mem_of_parsePrefix hp (by decide))]
      rfl
    have haccept : parseRule (ruleLine acceptWord remote input.localIA (join ',' accepted)) =
        some ⟨.accept, remote, input.localIA, accepted⟩ := by
      rw [parseRule, lineFields_accept h hacc hne hr, parseFields, hsplit]
      rfl
    rw [List.mapM_append, hadvertise, List.mapM_cons, haccept, List.mapM_nil]
    rfl
  · intro line hline
    obtain ⟨remote, hr, ⟨net, hn, rfl⟩ | rfl⟩ := mem_policyLines.mp hline
    · simp [lineFields_advertise h hr hn]
    · simp [lineFields_accept h hacc hne hr]

/-- A policy is no policy if nothing is accepted. -/
theorem parsePolicy_nil (h : input.Plain) (hne : input.acceptISDASes ≠ []) :
    parsePolicy ((policyLines input []).flatMap fun line => line ++ ['\n']) = none := by
  obtain ⟨remote, hr⟩ := List.exists_mem_of_ne_nil _ hne
  rw [parsePolicy_policyText h (by simp)]
  · refine Result.mapM_eq_none_of_mem (mem_policyLines.mpr ⟨remote, hr, .inr rfl⟩) ?_
    rw [parseRule, lineFields_accept_nil h hr]
    rfl
  · intro line hline
    obtain ⟨remote, hr, ⟨net, hn, rfl⟩ | rfl⟩ := mem_policyLines.mp hline
    · simp [lineFields_advertise h hr hn]
    · simp [lineFields_accept_nil h hr]

end Plain

/-! ### The traffic policy -/

/-- The keys of the traffic policy are the remotes. -/
theorem mem_ases {remotes : List Str} {k : Str} {v : Value} :
    (k, v) ∈ (GoMap.insertAll ∅ (remotes.map fun r => (r, trafficPolicyAS))).toList ↔
      k ∈ remotes ∧ v = trafficPolicyAS := by
  rw [Std.ExtTreeMap.mem_toList_iff_getElem?_eq_some, GoMap.getElem?_insertAll,
    Std.ExtTreeMap.getElem?_empty, Option.or_none]
  induction remotes with
  | nil => simp [GoMap.lastValue]
  | cons r remotes ih =>
      rw [List.map_cons, GoMap.lastValue, Option.or_eq_some_iff, ih, List.mem_cons]
      by_cases hk : k ∈ remotes
      · have hsome : GoMap.lastValue k (remotes.map fun r => (r, trafficPolicyAS)) ≠ none :=
          fun hnone => GoMap.lastValue_eq_none.mp hnone (k, trafficPolicyAS)
            (List.mem_map_of_mem hk) rfl
        simp [hk, hsome]
      · have hnone : GoMap.lastValue k (remotes.map fun r => (r, trafficPolicyAS)) = none := by
          rw [GoMap.lastValue_eq_none]
          intro e he heq
          obtain ⟨r', hr', rfl⟩ := List.mem_map.mp he
          exact hk (heq ▸ hr')
        simp only [hk, false_and, hnone, true_and, false_or, or_false, ite_eq_iff, reduceCtorEq,
          and_false, Option.some.injEq]
        rw [eq_comm (a := r), eq_comm (a := trafficPolicyAS)]

/-- The rendered traffic policy is read back as its document. -/
theorem unmarshal_trafficPolicy (remotes : List Str) :
    unmarshal (marshalIndent 4 (trafficPolicyDoc remotes) ++ ['\n']) =
      some (trafficPolicyDoc remotes) := by
  refine unmarshal_print (L := .indented 4) ?_ (by simp [isBlank])
  have hases : depthMembers
      (GoMap.insertAll ∅ (remotes.map fun r => (r, trafficPolicyAS))).toList ≤ 2 := by
    rw [depthMembers_le]
    rintro ⟨k, v⟩ hmem
    obtain ⟨-, rfl⟩ := mem_ases.mp hmem
    exact show trafficPolicyAS.depth ≤ 2 by decide
  simp only [trafficPolicyDoc, Value.depth, depthMembers, maxDepth]
  omega

/-! ### The round trip -/

/-- Both policies are rendered from the same inputs; the routing policy is then read back
as the intended rules, with at least one prefix each, those of the accept rules being what
is left of the IPv4 space without the forbidden CIDRs; and the traffic policy lists
exactly the remotes, without static prefixes. -/
def RoundTrips (input : Input) : Prop :=
  ((∃ text, renderRoutingPolicy input = .ok text) ↔
      ∃ doc, renderTrafficPolicy input = .ok doc) ∧
    ∀ text doc, renderRoutingPolicy input = .ok text → renderTrafficPolicy input = .ok doc →
      (∃ accepted, subtractCIDRs "0.0.0.0/0".toList input.forbiddenCIDRs = .ok accepted ∧
        parsePolicy text = some (intendedRules input accepted) ∧
        (∀ rule ∈ intendedRules input accepted,
          rule.nets ≠ [] ∧ ∀ net ∈ rule.nets, ∃ p, parsePrefix net = some p) ∧
        ∀ x, (∃ net ∈ accepted, InCIDR x net) ↔ ∀ c ∈ input.forbiddenCIDRs, ¬ InCIDR x c) ∧
      ∃ ases, unmarshal doc = some (.obj
          [("ASes".toList, .obj ases), ("ConfigVersion".toList, .num .one)]) ∧
        (ases.map Prod.fst).Nodup ∧
        ∀ k v, (k, v) ∈ ases ↔ k ∈ input.acceptISDASes ∧ v = .obj [("Nets".toList, .arr [])]

/-- The rules that are intended have prefixes, if something is accepted. -/
theorem nets_of_mem_intendedRules {input : Input} {accepted : List Str} (h : input.Plain)
    (hacc : ∀ s ∈ accepted, ReadsAsIPv4 s) (hne : accepted ≠ []) :
    ∀ rule ∈ intendedRules input accepted,
      rule.nets ≠ [] ∧ ∀ net ∈ rule.nets, ∃ p, parsePrefix net = some p := by
  intro rule hrule
  simp only [intendedRules, List.mem_flatMap, List.mem_append, List.mem_map,
    List.mem_singleton] at hrule
  obtain ⟨remote, -, ⟨net, hn, rfl⟩ | rfl⟩ := hrule
  · refine ⟨by simp, fun net' hnet' => ?_⟩
    obtain rfl := List.mem_singleton.mp hnet'
    exact h.nets net' hn
  · exact ⟨hne, fun net hnet => (hacc net hnet).imp fun _ => And.left⟩

/-- **When the policies round trip.** For an input whose names are fields and whose nets
are prefixes, they do unless the forbidden CIDRs are readable, cover the whole IPv4 space
and there is a remote: then accept rules are rendered without any prefix. -/
theorem roundTrips_iff {input : Input} (h : input.Plain) :
    RoundTrips input ↔ ¬ (input.acceptISDASes ≠ [] ∧
      (∀ c ∈ input.forbiddenCIDRs, ReadsAsIPv4 c) ∧ CoversIPv4 input.forbiddenCIDRs) := by
  have htraffic : ∀ doc, renderTrafficPolicy input = .ok doc ↔ (∃ accepted,
      prepare input = .ok accepted) ∧
        marshalIndent 4 (trafficPolicyDoc input.acceptISDASes) ++ ['\n'] = doc := by
    intro doc
    simp only [renderTrafficPolicy, Result.bind_eq_ok, Result.pure_eq_ok, exists_and_right]
  constructor
  · rintro ⟨-, hround⟩ ⟨hremotes, hforb, hcov⟩
    obtain ⟨c, hc, -⟩ := hcov 0
    obtain ⟨accepted, hacc⟩ := exists_prepare_iff.mpr
      ⟨h.localIA.1, hremotes, List.ne_nil_of_mem hc, hforb⟩
    obtain rfl := (accepted_eq_nil_iff hacc).mpr hcov
    obtain ⟨⟨accepted, -, hparse, -⟩, -⟩ := hround _ _
      (renderRoutingPolicy_eq_ok.mpr ⟨[], hacc, rfl⟩) ((htraffic _).mpr ⟨⟨[], hacc⟩, rfl⟩)
    rw [parsePolicy_nil h hremotes] at hparse
    cases hparse
  · intro hcond
    refine ⟨?_, fun text doc htext hdoc => ⟨?_, ?_⟩⟩
    · simp only [renderRoutingPolicy_eq_ok, htraffic]
      constructor
      · rintro ⟨text, accepted, hacc, -⟩
        exact ⟨_, ⟨accepted, hacc⟩, rfl⟩
      · rintro ⟨doc, ⟨accepted, hacc⟩, -⟩
        exact ⟨_, accepted, hacc, rfl⟩
    · obtain ⟨accepted, hacc, rfl⟩ := renderRoutingPolicy_eq_ok.mp htext
      obtain ⟨-, hremotes, -, hsub⟩ := prepare_eq_ok_iff.mp hacc
      have hne : accepted ≠ [] := fun hnil => hcond
        ⟨hremotes, readsAsIPv4_of_subtractCIDRs hsub, (accepted_eq_nil_iff hacc).mp hnil⟩
      have hread := readsAsIPv4_accepted hacc
      exact ⟨accepted, hsub, parsePolicy_eq_intendedRules h hread hne,
        nets_of_mem_intendedRules h hread hne, mem_accepted_iff hacc⟩
    · obtain ⟨-, rfl⟩ := (htraffic doc).mp hdoc
      refine ⟨_, unmarshal_trafficPolicy _, ?_, fun k v => mem_ases⟩
      rw [List.Nodup, List.pairwise_map]
      exact GoMap.pairwise_ne_toList _

/-- With one network forbidden and two remotes the policies round trip. -/
theorem roundTrips_of_one_forbidden :
    RoundTrips ⟨"1-ff00:0:110".toList, ["10.244.1.0/24".toList],
      ["2-ff00:0:210".toList, "2-ff00:0:211".toList], ["10.0.0.0/8".toList]⟩ := by
  refine (roundTrips_iff ⟨?_, ?_, ?_⟩).mpr ?_
  · decide +kernel
  · decide +kernel
  · intro n hn
    obtain rfl := List.mem_singleton.mp hn
    exact ⟨_, rfl⟩
  · rintro ⟨-, -, hcov⟩
    obtain ⟨c, hc, hin⟩ := hcov 0
    obtain rfl := List.mem_singleton.mp hc
    exact absurd hin (by decide +kernel)

/-- Everything forbidden: the one accept rule that is rendered has no prefix. -/
theorem not_roundTrips_of_default_forbidden :
    ¬ RoundTrips ⟨"1-ff00:0:110".toList, [], ["2-ff00:0:210".toList], ["0.0.0.0/0".toList]⟩ := by
  rintro ⟨-, hround⟩
  obtain ⟨⟨accepted, -, hparse, -⟩, -⟩ := hround
    "accept 2-ff00:0:210 1-ff00:0:110 \n".toList _ (by decide +kernel) rfl
  have hnone : parsePolicy "accept 2-ff00:0:210 1-ff00:0:110 \n".toList = none := by
    decide +kernel
  rw [hnone] at hparse
  cases hparse

end ScionOperator
