import ScionOperator.Agent
import ScionOperator.RoutingPolicy

/-!
# The Local IA in the Routing Policy

The local ISD-AS comes from the topology document that a discovery server serves. Neither
the bootstrap stage nor `localIA` nor `prepare` checks more than that it is not empty, and
it is spliced into every line of the routing policy. This module says exactly which texts
turn the policy into one that accepts what must not be accepted: a text with a line break
adds lines of its own, and a text with a `#` cuts off the prefixes that were computed.

## Main results

* `unsafeRule_iff`: what the fields of an unsafe accept rule look like.
* `safePolicy_iff`: **a rendered policy is safe exactly when the local IA is free of such
  an injection.**
* `unsafe_of_injected_default_route`: a topology that makes every agent accept a default
  route.
-/

namespace ScionOperator

open Text Json Netip

/-! ### Unsafe policies -/

/-- The pattern of the CRD for a remote ISD-AS: digits, a dash, and at least one
hexadecimal digit, underscore or colon. -/
def isISDAS (s : Str) : Bool :=
  match s.dropWhile Char.isDigit with
  | '-' :: rest =>
      s.takeWhile Char.isDigit ≠ [] && rest ≠ [] &&
        rest.all fun c => isHex c || c = '_' || c = ':'
  | _ => false

/-- A list of prefixes one of which must not be accepted. -/
def UnsafeNets (forbidden : List Str) (nets : Str) : Prop :=
  ∃ n ∈ Text.split ',' nets, Unsafe forbidden n

/-- The fields of an accept rule with a prefix that must not be accepted. -/
def UnsafeRule (forbidden : List Str) (fs : List Str) : Prop :=
  ∃ rule, parseFields fs = some rule ∧ rule.action = .accept ∧ ∃ n ∈ rule.nets, Unsafe forbidden n

instance (forbidden fs : List Str) : Decidable (UnsafeRule forbidden fs) :=
  decidable_of_iff ((parseFields fs).any (fun rule => rule.action = .accept &&
      rule.nets.any fun n => Unsafe forbidden n) = true) (by
    simp only [Option.any_eq_true, Bool.and_eq_true, decide_eq_true_eq, List.any_eq_true]
    rfl)

/-- A policy no line of which is such a rule. -/
def SafePolicy (forbidden : List Str) (text : Str) : Prop :=
  ∀ line ∈ Text.split '\n' text, ¬ UnsafeRule forbidden (lineFields line)

instance (forbidden : List Str) (text : Str) : Decidable (SafePolicy forbidden text) :=
  inferInstanceAs (Decidable
    (∀ line ∈ Text.split '\n' text, ¬ UnsafeRule forbidden (lineFields line)))

/-- A text with the last two fields of an unsafe accept rule. -/
def CompletesUnsafe (forbidden : List Str) (line : Str) : Prop :=
  ∃ toIA nets, lineFields line = [toIA, nets] ∧ UnsafeNets forbidden nets

/-- A local IA that injects no unsafe rule. On one line, it does not complete an accept
rule and then start a comment (or leave the rule complete because nothing is accepted).
Over several lines, neither its first line completes an accept rule, nor is one of the
others an unsafe rule, and its last line does not make one with what is advertised. -/
def InjectionFree (forbidden nets : List Str) (ia : Str) : Prop :=
  (∀ line, Text.split '\n' ia = [line] →
    '#' ∈ line ∨ CoversIPv4 forbidden → ¬ CompletesUnsafe forbidden line) ∧
  ∀ first mid last, Text.split '\n' ia = first :: mid ++ [last] →
    ¬ CompletesUnsafe forbidden first ∧
    (∀ line ∈ mid, ¬ UnsafeRule forbidden (lineFields line)) ∧
    ('#' ∈ last ∨ CoversIPv4 forbidden → ¬ UnsafeRule forbidden (lineFields last)) ∧
    ('#' ∉ last → (∃ a, lineFields last = [acceptWord, a]) →
      ∀ n ∈ nets, ¬ Unsafe forbidden n)

/-! ### Fields of unsafe rules -/

variable {forbidden nets remotes accepted : List Str}

/-- The fields of an unsafe accept rule. -/
theorem unsafeRule_iff {fs : List Str} : UnsafeRule forbidden fs ↔
    ∃ a b ns, fs = [acceptWord, a, b, ns] ∧ UnsafeNets forbidden ns := by
  have haccept : ∀ w, parseAction w = some .accept ↔ w = acceptWord := by
    intro w
    rw [parseAction]
    split_ifs with h <;> simp [h]
  constructor
  · rintro ⟨rule, hparse, haction, n, hn, hunsafe⟩
    rw [parseFields.eq_def] at hparse
    split at hparse
    · next w a b ns =>
        obtain ⟨act, hact, rfl⟩ := Option.map_eq_some_iff.mp hparse
        obtain rfl : act = .accept := haction
        exact ⟨a, b, ns, by rw [(haccept w).mp hact], n, hn, hunsafe⟩
    · cases hparse
  · rintro ⟨a, b, ns, rfl, n, hn, hunsafe⟩
    exact ⟨⟨.accept, a, b, Text.split ',' ns⟩, rfl, rfl, n, hn, hunsafe⟩

/-- A line without fields is no rule. -/
theorem not_unsafeRule_nil : ¬ UnsafeRule forbidden [] := by
  simp [unsafeRule_iff]

/-- A line that advertises is no accept rule. -/
theorem not_unsafeRule_advertise {fs : List Str} :
    ¬ UnsafeRule forbidden (advertiseWord :: fs) := by
  rw [unsafeRule_iff]
  rintro ⟨a, b, ns, heq, -⟩
  exact absurd (List.cons.inj heq).1 (by decide)

/-- A line that starts like the accept rule for a remote. -/
theorem unsafeRule_accept {a line : Str} :
    UnsafeRule forbidden (acceptWord :: a :: lineFields line) ↔ CompletesUnsafe forbidden line := by
  rw [unsafeRule_iff, CompletesUnsafe]
  constructor
  · rintro ⟨a', b, ns, heq, hns⟩
    simp only [List.cons.injEq, true_and] at heq
    exact ⟨b, ns, heq.2, hns⟩
  · rintro ⟨b, ns, heq, hns⟩
    exact ⟨a, b, ns, by rw [heq], hns⟩

/-- Fields before and after a space, if no comment starts before it. -/
theorem lineFields_append {s : Str} (hs : '#' ∉ s) (t : Str) :
    lineFields (s ++ ' ' :: t) = lineFields s ++ lineFields t := by
  have hspace : '#' ∉ s ++ [' '] := by simp [hs]
  rw [lineFields, show s ++ ' ' :: t = (s ++ [' ']) ++ t by simp, stripComment_append hspace,
    List.append_assoc, List.singleton_append, fields_append_cons _ _ (by decide), lineFields,
    stripComment_eq_self hs]
  rfl

/-- Fields up to a comment. -/
theorem lineFields_append_of_mem {s : Str} (hs : '#' ∈ s) (t : Str) :
    lineFields (s ++ t) = lineFields s := by
  rw [lineFields, stripComment_append_of_mem hs, lineFields]

/-! ### What the computed prefixes add -/

/-- The accepted prefixes as the last field of a line: they are harmless, unless they are
cut off by a comment or there are none, so that the rule ends before them. -/
theorem unsafeRule_append_accepted {input : Input} (hacc : prepare input = .ok accepted)
    (s : Str) :
    UnsafeRule input.forbiddenCIDRs (lineFields (s ++ ' ' :: join ',' accepted)) ↔
      ('#' ∈ s ∨ CoversIPv4 input.forbiddenCIDRs) ∧
        UnsafeRule input.forbiddenCIDRs (lineFields s) := by
  by_cases hs : '#' ∈ s
  · simp [lineFields_append_of_mem hs, hs]
  rw [lineFields_append hs, ← accepted_eq_nil_iff hacc]
  rcases eq_or_ne accepted [] with rfl | hne
  · simp [join, lineFields, stripComment]
  · have hread := readsAsIPv4_accepted hacc
    have hsplit : Text.split ',' (join ',' accepted) = accepted := by
      refine split_join (fun c hc => ?_) hne
      obtain ⟨p, hp, -⟩ := hread c hc
      exact not_mem_of_parsePrefix hp (by decide)
    rw [lineFields_eq_singleton (isField_join hne hread), unsafeRule_iff]
    simp only [hs, hne, or_self, false_and, iff_false]
    rintro ⟨a, b, ns, heq, n, hn, hunsafe⟩
    -- the last of the four fields is the accepted list
    obtain rfl : join ',' accepted = ns := by
      have hlast := congrArg List.getLast? heq
      simpa using hlast
    rw [hsplit] at hn
    exact not_unsafe_accepted hacc n hn hunsafe

/-- A remote and an advertised net as the last fields of a line. -/
theorem unsafeRule_append_advertised {s remote net : Str} (hr : IsField remote)
    (hn : ReadsAsIPv4 net) :
    UnsafeRule forbidden (lineFields (s ++ ' ' :: (remote ++ ' ' :: net))) ↔
      ('#' ∈ s ∧ UnsafeRule forbidden (lineFields s)) ∨
        ('#' ∉ s ∧ (∃ a, lineFields s = [acceptWord, a]) ∧ Unsafe forbidden net) := by
  by_cases hs : '#' ∈ s
  · simp [lineFields_append_of_mem hs, hs]
  obtain ⟨p, hp, -⟩ := hn
  have hsplit : Text.split ',' net = [net] :=
    split_eq_singleton (not_mem_of_parsePrefix hp (by decide))
  rw [lineFields_append hs, lineFields_cons hr, lineFields_eq_singleton (isField_of_parsePrefix hp),
    unsafeRule_iff]
  simp only [hs, false_and, not_false_eq_true, true_and, false_or]
  constructor
  · rintro ⟨a, b, ns, heq, n, hmem, hunsafe⟩
    have hsplit4 : lineFields s ++ [remote, net] = [acceptWord, a] ++ [b, ns] := heq
    obtain ⟨hfst, hsnd⟩ := List.append_inj' hsplit4 rfl
    obtain ⟨rfl, rfl⟩ : remote = b ∧ net = ns := by simpa using hsnd
    rw [hsplit, List.mem_singleton] at hmem
    exact ⟨⟨a, hfst⟩, hmem ▸ hunsafe⟩
  · rintro ⟨⟨a, ha⟩, hunsafe⟩
    exact ⟨a, remote, net, by rw [ha]; rfl, net, by simp [hsplit], hunsafe⟩

/-! ### Lines of a rendered policy -/

/-- The characters of a remote that matches the pattern. -/
theorem chars_of_isISDAS {s : Str} (h : isISDAS s = true) :
    s ≠ [] ∧ ∀ c ∈ s, c = '-' ∨ isHex c = true ∨ c = '_' ∨ c = ':' := by
  rw [isISDAS] at h
  split at h
  · next rest heq =>
      simp only [Bool.and_eq_true, decide_eq_true_eq, List.all_eq_true, Bool.or_eq_true] at h
      obtain ⟨⟨hdigits, hrest⟩, hall⟩ := h
      have hs : s = s.takeWhile Char.isDigit ++ '-' :: rest := by
        rw [← heq, List.takeWhile_append_dropWhile]
      refine ⟨fun hnil => hdigits (by rw [hnil]; rfl), fun c hc => ?_⟩
      rw [hs] at hc
      simp only [List.mem_append, List.mem_cons] at hc
      rcases hc with hc | rfl | hc
      · have hdigit := List.mem_takeWhile_imp hc
        exact .inr (.inl (by simp [isHex, hdigit]))
      · exact .inl rfl
      · rcases hall c hc with (h | h) | h
        · exact .inr (.inl h)
        · exact .inr (.inr (.inl h))
        · exact .inr (.inr (.inr h))
  · cases h

/-- A remote that matches the pattern has no white space. -/
theorem noSpace_of_isISDAS {s : Str} (h : isISDAS s = true) : NoSpace s := by
  intro c hc
  rcases (chars_of_isISDAS h).2 c hc with rfl | h | rfl | rfl
  · decide
  · exact isSpace_of_prefixChar (by simp [prefixChar, h])
  · decide
  · decide

/-- A remote that matches the pattern is one field. -/
theorem isField_of_isISDAS {s : Str} (h : isISDAS s = true) : IsField s := by
  refine ⟨(chars_of_isISDAS h).1, noSpace_of_isISDAS h, fun hc => ?_⟩
  rcases (chars_of_isISDAS h).2 _ hc with h | h | h | h <;> exact absurd h (by decide)

/-- A policy is safe when each of its rendered lines is, with the breaks the local IA puts
into them. -/
theorem safePolicy_iff_lines {input : Input} :
    SafePolicy forbidden ((policyLines input accepted).flatMap fun line => line ++ ['\n']) ↔
      ∀ body ∈ policyLines input accepted, ∀ line ∈ Text.split '\n' body,
        ¬ UnsafeRule forbidden (lineFields line) := by
  rw [SafePolicy, split_flatMap_terminated]
  simp only [List.mem_append, List.mem_flatMap, List.mem_singleton]
  constructor
  · exact fun h body hbody line hline => h line (.inl ⟨body, hbody, hline⟩)
  · rintro h line (⟨body, hbody, hline⟩ | rfl)
    · exact h body hbody line hline
    · exact not_unsafeRule_nil

section Rendered

variable {ia : Str}

/-- What being free of injections means for a local IA on one line. -/
theorem injectionFree_single {line : Str} (h : Text.split '\n' ia = [line]) :
    InjectionFree forbidden nets ia ↔
      ('#' ∈ line ∨ CoversIPv4 forbidden → ¬ CompletesUnsafe forbidden line) := by
  constructor
  · exact fun hfree => hfree.1 line h
  · refine fun hline => ⟨fun line' h' => ?_, fun first mid last h' => ?_⟩
    · obtain ⟨rfl⟩ : line = line' := by simpa [h] using h'
      exact hline
    · have hlen := congrArg List.length (h.symm.trans h')
      simp at hlen

/-- What being free of injections means for a local IA over several lines. -/
theorem injectionFree_several {first last : Str} {mid : List Str}
    (h : Text.split '\n' ia = first :: mid ++ [last]) :
    InjectionFree forbidden nets ia ↔
      ¬ CompletesUnsafe forbidden first ∧
      (∀ line ∈ mid, ¬ UnsafeRule forbidden (lineFields line)) ∧
      ('#' ∈ last ∨ CoversIPv4 forbidden → ¬ UnsafeRule forbidden (lineFields last)) ∧
      ('#' ∉ last → (∃ a, lineFields last = [acceptWord, a]) →
        ∀ n ∈ nets, ¬ Unsafe forbidden n) := by
  constructor
  · exact fun hfree => hfree.2 first mid last h
  · refine fun hlines => ⟨fun line h' => ?_, fun first' mid' last' h' => ?_⟩
    · have hlen := congrArg List.length (h.symm.trans h')
      simp at hlen
    · obtain ⟨hinit, hlast⟩ := List.append_inj' (h.symm.trans h') rfl
      obtain ⟨rfl, rfl⟩ := List.cons.inj hinit
      obtain rfl : last = last' := by simpa using hlast
      exact hlines

/-- A rendered advertise line, around the local IA. -/
theorem ruleLine_advertise (remote net : Str) : ruleLine advertiseWord ia remote net =
    (advertiseWord ++ [' ']) ++ ia ++ (' ' :: (remote ++ ' ' :: net)) := by
  simp [ruleLine]

/-- A rendered accept line, around the local IA. -/
theorem ruleLine_accept (remote ns : Str) : ruleLine acceptWord remote ia ns =
    (acceptWord ++ ' ' :: (remote ++ [' '])) ++ ia ++ (' ' :: ns) := by
  simp [ruleLine]

/-- The start of a rendered accept line. -/
theorem unsafeRule_accept_start {remote line : Str} (hr : IsField remote) :
    UnsafeRule forbidden (lineFields (acceptWord ++ ' ' :: (remote ++ [' ']) ++ line)) ↔
      CompletesUnsafe forbidden line := by
  rw [← unsafeRule_accept (a := remote), List.append_assoc, List.cons_append,
    lineFields_cons isField_words.2, List.append_assoc, List.singleton_append, lineFields_cons hr]

/-- Nothing around the local IA in a rendered line contains a line break or, before it, a
comment. -/
theorem not_mem_around {remote : Str} (hr : IsField remote)
    (hacc : prepare ⟨ia, nets, remotes, forbidden⟩ = .ok accepted) :
    '\n' ∉ acceptWord ++ ' ' :: (remote ++ [' ']) ∧ '#' ∉ acceptWord ++ ' ' :: (remote ++ [' ']) ∧
      '\n' ∉ ' ' :: join ',' accepted := by
  refine ⟨?_, ?_, fun hmem => ?_⟩
  · simp [isField_words.2.not_mem_newline, hr.not_mem_newline]
  · simp [isField_words.2.2.2, hr.2.2]
  · rcases List.mem_cons.mp hmem with h | h
    · exact absurd h (by decide)
    · rcases mem_join h with h | ⟨s, hs, hmem⟩
      · exact absurd h (by decide)
      · obtain ⟨p, hp, -⟩ := readsAsIPv4_accepted hacc s hs
        exact (isField_of_parsePrefix hp).not_mem_newline hmem

/-- The rule for what is accepted from a remote, if the local IA is one line. -/
theorem safe_accept_single {remote : Str} (hr : IsField remote) {line : Str}
    (hsplit : Text.split '\n' ia = [line])
    (hacc : prepare ⟨ia, nets, remotes, forbidden⟩ = .ok accepted) :
    (∀ l ∈ Text.split '\n' (ruleLine acceptWord remote ia (join ',' accepted)),
        ¬ UnsafeRule forbidden (lineFields l)) ↔
      ('#' ∈ line ∨ CoversIPv4 forbidden → ¬ CompletesUnsafe forbidden line) := by
  obtain ⟨hpre, hhash, hpost⟩ := not_mem_around hr hacc
  have hlast := unsafeRule_append_accepted hacc (acceptWord ++ ' ' :: (remote ++ [' ']) ++ line)
  rw [unsafeRule_accept_start hr, List.mem_append, or_iff_right hhash] at hlast
  rw [ruleLine_accept, split_frame_single hsplit hpre hpost]
  simp only [List.mem_singleton, forall_eq, hlast, not_and]

/-- The rule for what is accepted from a remote, if the local IA has several lines. -/
theorem safe_accept_several {remote : Str} (hr : IsField remote) {first last : Str}
    {mid : List Str} (hsplit : Text.split '\n' ia = first :: mid ++ [last])
    (hacc : prepare ⟨ia, nets, remotes, forbidden⟩ = .ok accepted) :
    (∀ l ∈ Text.split '\n' (ruleLine acceptWord remote ia (join ',' accepted)),
        ¬ UnsafeRule forbidden (lineFields l)) ↔
      ¬ CompletesUnsafe forbidden first ∧
      (∀ line ∈ mid, ¬ UnsafeRule forbidden (lineFields line)) ∧
      ('#' ∈ last ∨ CoversIPv4 forbidden → ¬ UnsafeRule forbidden (lineFields last)) := by
  obtain ⟨hpre, -, hpost⟩ := not_mem_around hr hacc
  have hlast := unsafeRule_append_accepted hacc last
  rw [ruleLine_accept, split_frame hsplit hpre hpost]
  simp only [List.cons_append, List.mem_cons, List.mem_append, List.not_mem_nil, or_false,
    unsafeRule_accept_start hr, or_imp, forall_and, forall_eq, hlast, not_and]

/-- A rule that advertises a net, if the local IA is one line. -/
theorem safe_advertise_single {remote net : Str} (hr : IsField remote) (hn : ReadsAsIPv4 net)
    {line : Str} (hsplit : Text.split '\n' ia = [line]) :
    ∀ l ∈ Text.split '\n' (ruleLine advertiseWord ia remote net),
      ¬ UnsafeRule forbidden (lineFields l) := by
  obtain ⟨p, hp, -⟩ := hn
  rw [ruleLine_advertise, split_frame_single hsplit (by decide)
    (by simp [hr.not_mem_newline, (isField_of_parsePrefix hp).not_mem_newline])]
  simp only [List.mem_singleton, forall_eq, List.append_assoc, List.nil_append,
    List.cons_append, lineFields_cons isField_words.1]
  exact not_unsafeRule_advertise

/-- A rule that advertises a net, if the local IA has several lines. -/
theorem safe_advertise_several {remote net : Str} (hr : IsField remote) (hn : ReadsAsIPv4 net)
    {first last : Str} {mid : List Str} (hsplit : Text.split '\n' ia = first :: mid ++ [last]) :
    (∀ l ∈ Text.split '\n' (ruleLine advertiseWord ia remote net),
        ¬ UnsafeRule forbidden (lineFields l)) ↔
      (∀ line ∈ mid, ¬ UnsafeRule forbidden (lineFields line)) ∧
      ('#' ∈ last → ¬ UnsafeRule forbidden (lineFields last)) ∧
      ('#' ∉ last → (∃ a, lineFields last = [acceptWord, a]) → ¬ Unsafe forbidden net) := by
  obtain ⟨p, hp, -⟩ := id hn
  have hfirst : ¬ UnsafeRule forbidden (lineFields (advertiseWord ++ ' ' :: first)) := by
    rw [lineFields_cons isField_words.1]
    exact not_unsafeRule_advertise
  rw [ruleLine_advertise, split_frame hsplit (by decide)
    (by simp [hr.not_mem_newline, (isField_of_parsePrefix hp).not_mem_newline])]
  simp only [List.cons_append, List.mem_cons, List.mem_append, List.not_mem_nil, or_false,
    List.append_assoc, List.nil_append, hfirst, not_false_eq_true, true_and, or_imp,
    forall_and, forall_eq, unsafeRule_append_advertised hr hn, not_or, not_and]

/-- A rendered policy is safe exactly when the local IA is free of injections. -/
theorem safePolicy_iff_injectionFree {text : Str}
    (hremotes : ∀ r ∈ remotes, isISDAS r = true) (hnets : ∀ n ∈ nets, ReadsAsIPv4 n)
    (h : renderRoutingPolicy ⟨ia, nets, remotes, forbidden⟩ = .ok text) :
    SafePolicy forbidden text ↔ InjectionFree forbidden nets ia := by
  obtain ⟨accepted, hacc, rfl⟩ := renderRoutingPolicy_eq_ok.mp h
  obtain ⟨-, hne, -, -⟩ := prepare_eq_ok_iff.mp hacc
  obtain ⟨remote₀, hr₀⟩ := List.exists_mem_of_ne_nil _ hne
  have hfield : ∀ r ∈ remotes, IsField r := fun r hr => isField_of_isISDAS (hremotes r hr)
  rw [safePolicy_iff_lines]
  simp only [mem_policyLines]
  obtain ⟨first, rest, hsplit⟩ := List.exists_cons_of_ne_nil (split_ne_nil '\n' ia)
  rcases List.eq_nil_or_concat rest with rfl | ⟨mid, last, rfl⟩
  · rw [injectionFree_single hsplit]
    constructor
    · intro hsafe
      exact (safe_accept_single (hfield _ hr₀) hsplit hacc).mp
        (hsafe _ ⟨remote₀, hr₀, .inr rfl⟩)
    · rintro hfree body ⟨remote, hr, ⟨net, hn, rfl⟩ | rfl⟩
      · exact safe_advertise_single (hfield _ hr) (hnets net hn) hsplit
      · exact (safe_accept_single (hfield _ hr) hsplit hacc).mpr hfree
  · rw [List.concat_eq_append, ← List.cons_append] at hsplit
    rw [injectionFree_several hsplit]
    constructor
    · intro hsafe
      obtain ⟨hfirst, hmid, hlast⟩ := (safe_accept_several (hfield _ hr₀) hsplit hacc).mp
        (hsafe _ ⟨remote₀, hr₀, .inr rfl⟩)
      refine ⟨hfirst, hmid, hlast, fun hhash hline n hn => ?_⟩
      exact ((safe_advertise_several (hfield _ hr₀) (hnets n hn) hsplit).mp
        (hsafe _ ⟨remote₀, hr₀, .inl ⟨n, hn, rfl⟩⟩)).2.2 hhash hline
    · rintro ⟨hfirst, hmid, hlast, hadv⟩ body ⟨remote, hr, ⟨net, hn, rfl⟩ | rfl⟩
      · exact (safe_advertise_several (hfield _ hr) (hnets net hn) hsplit).mpr
          ⟨hmid, fun hhash => hlast (.inl hhash), fun hhash hline => hadv hhash hline net hn⟩
      · exact (safe_accept_several (hfield _ hr) hsplit hacc).mpr ⟨hfirst, hmid, hlast⟩

/-- A local IA that is one field is harmless. -/
theorem injectionFree_of_isField (hia : IsField ia) : InjectionFree forbidden nets ia := by
  rw [injectionFree_single (split_eq_singleton hia.not_mem_newline)]
  rintro - ⟨toIA, ns, heq, -⟩
  rw [lineFields_eq_singleton hia] at heq
  cases heq

end Rendered

/-- **Safety of a rendered policy.** From a topology that the bootstrap stage accepts the
agent takes a local IA. With remotes that match the pattern of the CRD and IPv4 nets to
advertise, whenever a routing policy is rendered, no line of it accepts a default route or
a prefix that overlaps a forbidden CIDR exactly when that local IA is free of
injections. -/
theorem safePolicy_iff {topology : Str} (hboot : Agent.acceptsTopology topology = true) :
    ∃ ia, Agent.localIA (some topology) = .ok ia ∧
      ∀ {remotes nets forbidden : List Str} {text : Str},
        (∀ r ∈ remotes, isISDAS r = true) → (∀ n ∈ nets, ReadsAsIPv4 n) →
        renderRoutingPolicy ⟨ia, nets, remotes, forbidden⟩ = .ok text →
        (SafePolicy forbidden text ↔ InjectionFree forbidden nets ia) := by
  rw [Agent.acceptsTopology] at hboot
  cases hia : Agent.decodeISDAS topology with
  | none =>
      rw [hia] at hboot
      cases hboot
  | some ia =>
      simp only [hia, ne_eq, decide_not, Bool.not_eq_true', decide_eq_false_iff_not] at hboot
      refine ⟨ia, by simp [Agent.localIA, hia, hboot], fun hremotes hnets h => ?_⟩
      exact safePolicy_iff_injectionFree hremotes hnets h

/-- A topology with a plain ISD-AS gives a safe policy. -/
theorem safePolicy_of_plain_topology :
    ∃ text, renderRoutingPolicy ⟨"1-ff00:0:112".toList, ["10.244.1.0/24".toList],
        ["2-ff00:0:210".toList], ["10.0.0.0/8".toList]⟩ = .ok text ∧
      SafePolicy ["10.0.0.0/8".toList] text := by
  obtain ⟨ia, hia, hsafe⟩ := safePolicy_iff
    (show Agent.acceptsTopology "\x7b\"isd_as\": \"1-ff00:0:112\"\x7d".toList = true by
      decide +kernel)
  obtain rfl : "1-ff00:0:112".toList = ia := Except.ok.inj
    ((show Agent.localIA (some "\x7b\"isd_as\": \"1-ff00:0:112\"\x7d".toList) =
      .ok "1-ff00:0:112".toList by decide +kernel).symm.trans hia)
  obtain ⟨accepted, hacc⟩ : ∃ accepted, prepare ⟨"1-ff00:0:112".toList,
      ["10.244.1.0/24".toList], ["2-ff00:0:210".toList], ["10.0.0.0/8".toList]⟩ = .ok accepted :=
    exists_prepare_iff.mpr ⟨by simp, by simp, by simp, by decide +kernel⟩
  have htext := renderRoutingPolicy_eq_ok.mpr ⟨accepted, hacc, rfl⟩
  exact ⟨_, htext, (hsafe (by decide +kernel) (by decide +kernel) htext).mpr
    (injectionFree_of_isField (by decide +kernel))⟩

/-- A topology that makes an agent accept a default route: the text after the space is
read as the prefixes of the accept rule, and the computed ones are a comment. -/
theorem unsafe_of_injected_default_route :
    Agent.acceptsTopology "\x7b\"isd_as\": \"1-ff00:0:112 0.0.0.0/0 #\"\x7d".toList = true ∧
    Agent.localIA (some "\x7b\"isd_as\": \"1-ff00:0:112 0.0.0.0/0 #\"\x7d".toList) =
      .ok "1-ff00:0:112 0.0.0.0/0 #".toList ∧
    isISDAS "2-ff00:0:210".toList = true ∧
    ∃ text, renderRoutingPolicy ⟨"1-ff00:0:112 0.0.0.0/0 #".toList, [],
        ["2-ff00:0:210".toList], ["10.0.0.0/8".toList]⟩ = .ok text ∧
      ¬ SafePolicy ["10.0.0.0/8".toList] text := by
  refine ⟨by decide +kernel, by decide +kernel, by decide +kernel, ?_⟩
  exact ⟨"accept 2-ff00:0:210 1-ff00:0:112 0.0.0.0/0 # 0.0.0.0/5,11.0.0.0/8,12.0.0.0/6,".toList ++
      "128.0.0.0/1,16.0.0.0/4,32.0.0.0/3,64.0.0.0/2,8.0.0.0/7\n".toList,
    by decide +kernel, by decide +kernel⟩

end ScionOperator
