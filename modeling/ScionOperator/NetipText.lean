import ScionOperator.Netip

/-!
# The Textual Form of Prefixes

Two facts about the reader `parsePrefix` and the printer `Prefix.string` carry every
argument about rendered policies: a printed IPv4 prefix reads back as itself, and a text
that reads as a prefix of either family contains no character a policy file gives a
meaning to (white space, `,`, `#`).

## Main results

* `parsePrefix_string`: **the round trip** on valid IPv4 prefixes.
* `prefixChar_of_parsePrefix`: the characters of a readable prefix.
* `noSpace_of_parsePrefix`, `ne_nil_of_parsePrefix`, `not_mem_of_parsePrefix`: what
  follows for the fields of a line.
-/

namespace Netip

open Text

/-! ### Numbers -/

/-- A positive number does not start with a zero. -/
theorem head_itoa_ne_zero {n : ℕ} (hn : 0 < n) : (itoa n).head? ≠ some '0' := by
  induction n using Nat.strong_induction_on with
  | _ n ih =>
      by_cases h : n < 10
      · rw [itoa, Nat.toDigits_of_lt_base h]
        interval_cases n <;> decide
      · have hrec := ih (n / 10) (by omega) (by omega)
        have hne : itoa (n / 10) ≠ [] := itoa_ne_nil _
        rw [itoa, Nat.toDigits_of_base_le (by omega) (by omega)]
        rw [itoa] at hrec hne
        rwa [List.head?_append_of_ne_nil _ hne]

/-- A printed number is in canonical form. -/
@[simp] theorem canonicalNat_itoa (n : ℕ) : canonicalNat (itoa n) = some n := by
  rw [canonicalNat, if_pos, atoi_itoa]
  rcases Nat.eq_zero_or_pos n with rfl | hn
  · exact .inl rfl
  · exact .inr (head_itoa_ne_zero hn)

/-- The digits of a number in canonical form. -/
theorem isDigit_of_canonicalNat {s : Str} {n : ℕ} (h : canonicalNat s = some n) :
    s ≠ [] ∧ ∀ c ∈ s, c.isDigit = true := by
  rw [canonicalNat] at h
  split_ifs at h with h1
  rw [atoi] at h
  split_ifs at h with h2
  simp only [allDigits, Bool.and_eq_true, Bool.not_eq_true', List.isEmpty_eq_false_iff,
    List.all_eq_true] at h2
  exact h2

/-! ### The round trip -/

/-- A printed byte reads back. -/
theorem octet_itoa (b : BitVec 8) : octet (itoa b.toNat) = some b := by
  have hb : b.toNat ≤ 255 := by
    have := b.isLt
    omega
  simp [octet, hb]

/-- A printed number contains no character that is not a digit. -/
theorem not_mem_itoa {n : ℕ} {c : Char} (hc : c.isDigit = false) : c ∉ itoa n :=
  fun h => ne_of_isDigit (isDigit_of_mem_itoa h) hc rfl

/-- A printed IPv4 address reads back. -/
theorem parseIPv4_string4 (a : BitVec 32) : parseIPv4 (string4 a) = some a := by
  have hsplit : split '.' (string4 a) = (as4 a).map fun b => itoa b.toNat := by
    refine split_join ?_ (by simp [as4])
    intro s hs
    obtain ⟨b, -, rfl⟩ := List.mem_map.mp hs
    exact not_mem_itoa (by decide)
  simp only [parseIPv4, hsplit, as4, List.map_cons, List.map_nil, octet_itoa, Option.pure_def,
    Option.bind_eq_bind, Option.bind_some, addrFrom4_as4]

/-- The first byte of a printed address is followed by a dot. -/
theorem string4_eq (a : BitVec 32) : ∃ rest, string4 a =
    itoa (a.extractLsb' 24 8).toNat ++ '.' :: rest := by
  simp only [string4, as4, List.map_cons, List.map_nil, join, List.intercalate_cons_cons]
  exact ⟨_, by simp only [List.append_assoc, List.singleton_append]; rfl⟩

/-- A printed IPv4 address reads back as an address. -/
theorem parseAddr_string4 (a : BitVec 32) : parseAddr (string4 a) = some (.v4 a) := by
  obtain ⟨rest, hrest⟩ := string4_eq a
  have hfind : (string4 a).find? (fun c => c = '.' || c = ':' || c = '%') = some '.' := by
    rw [hrest, List.find?_append, List.find?_eq_none.mpr]
    · simp
    · intro c hc
      have hd := isDigit_of_mem_itoa hc
      simp [ne_of_isDigit hd (show '.'.isDigit = false by decide),
        ne_of_isDigit hd (show ':'.isDigit = false by decide),
        ne_of_isDigit hd (show '%'.isDigit = false by decide)]
  rw [parseAddr, hfind]
  simp [parseIPv4_string4]

/-- Cutting a text at its last slash. -/
theorem rdropWhile_slash {s t : Str} (ht : '/' ∉ t) :
    (s ++ '/' :: t).rdropWhile (· ≠ '/') = s ++ ['/'] ∧
      (s ++ '/' :: t).rtakeWhile (· ≠ '/') = t := by
  have hall : ∀ c ∈ t.reverse, (decide (c ≠ '/')) = true := by
    intro c hc
    have hne : c ≠ '/' := fun h => ht (by simpa [h] using hc)
    simp [hne]
  have hrev : (s ++ '/' :: t).reverse = t.reverse ++ '/' :: s.reverse := by simp
  constructor
  · rw [List.rdropWhile, hrev, List.dropWhile_append_of_pos hall]
    simp
  · rw [List.rtakeWhile, hrev, List.takeWhile_append_of_pos hall]
    simp

/-- The text of an address, a slash and a length read as a prefix. -/
theorem parsePrefix_append {s : Str} {a : Addr} (h : parseAddr s = some a) (hz : a.zone = [])
    {n : ℕ} (hn : n ≤ a.bitLen) : parsePrefix (s ++ '/' :: itoa n) = some ⟨a, n⟩ := by
  have hslash : '/' ∉ itoa n := not_mem_itoa (by decide)
  have hne : s ++ ['/'] ≠ [] := by simp
  simp only [parsePrefix, (rdropWhile_slash hslash).1, (rdropWhile_slash hslash).2]
  rw [List.dropLast_concat, h]
  simp [hz, hn]

/-- **The round trip**: a printed valid IPv4 prefix reads back as itself. -/
theorem parsePrefix_string {p : Prefix} (hp : p.isIPv4 = true) :
    parsePrefix p.string = some p := by
  obtain ⟨a, n, rfl, hn⟩ := Prefix.isIPv4_iff.mp hp
  have hvalid : Prefix.isValid ⟨.v4 a, n⟩ = true := Prefix.isValid_iff.mpr hn
  rw [Prefix.string, if_pos hvalid]
  exact parsePrefix_append (parseAddr_string4 a) rfl hn

/-! ### The characters of a prefix -/

/-- The characters that occur in the text of a prefix. -/
def prefixChar (c : Char) : Bool :=
  isHex c || c = '.' || c = ':' || c = '/'

/-- Digits are characters of a prefix. -/
theorem prefixChar_of_isDigit {c : Char} (h : c.isDigit = true) : prefixChar c = true := by
  simp [prefixChar, isHex, h]

/-- The parts of a split text, and its separators, are all there is. -/
theorem forall_mem_of_split (sep : Char) {P : Char → Prop} (hsep : P sep) {s : Str}
    (h : ∀ t ∈ split sep s, ∀ c ∈ t, P c) : ∀ c ∈ s, P c := by
  intro c hc
  have hjoin : join sep (split sep s) = s := List.intercalate_splitOn sep
  rw [← hjoin] at hc
  rcases mem_join hc with rfl | ⟨t, ht, hct⟩
  · exact hsep
  · exact h t ht c hct

/-- The characters of a readable byte. -/
theorem prefixChar_of_octet {s : Str} {b : BitVec 8} (h : octet s = some b) :
    ∀ c ∈ s, prefixChar c = true := by
  simp only [octet, Option.bind_eq_bind, Option.bind_eq_some_iff] at h
  obtain ⟨n, hn, -⟩ := h
  exact fun c hc => prefixChar_of_isDigit ((isDigit_of_canonicalNat hn).2 c hc)

/-- The characters of a readable IPv4 address. -/
theorem prefixChar_of_parseIPv4 {s : Str} {a : BitVec 32} (h : parseIPv4 s = some a) :
    ∀ c ∈ s, prefixChar c = true := by
  refine forall_mem_of_split '.' (P := fun c => prefixChar c = true) (by decide) ?_
  rw [parseIPv4] at h
  split at h
  · next a b c d hsplit =>
      simp only [Option.bind_eq_bind, Option.bind_eq_some_iff] at h
      obtain ⟨_, ha, _, hb, _, hc, _, hd, -⟩ := h
      rw [hsplit]
      simp only [List.mem_cons, List.not_mem_nil, or_false]
      rintro t (rfl | rfl | rfl | rfl)
      · exact prefixChar_of_octet ha
      · exact prefixChar_of_octet hb
      · exact prefixChar_of_octet hc
      · exact prefixChar_of_octet hd
  · cases h

/-- The hexadecimal digits a group starts with. -/
theorem prefixChar_of_takeWhile {s : Str} :
    ∀ c ∈ s.takeWhile isHex, prefixChar c = true := by
  intro c hc
  simp [prefixChar, List.mem_takeWhile_imp hc]

/-- The characters of readable IPv6 groups. -/
theorem prefixChar_of_parseIPv6Groups {room : ℕ} {s : Str} {ws : List ℕ} {ell : Option ℕ}
    {r : List ℕ × Option ℕ} (h : parseIPv6Groups room s ws ell = some r) :
    ∀ c ∈ s, prefixChar c = true := by
  induction room generalizing s ws ell with
  | zero =>
      simp only [parseIPv6Groups] at h
      split_ifs at h with hs
      simp [hs]
  | succ room ih =>
      -- whatever follows the digits of the group is accounted for case by case
      have key : (∀ c ∈ s.dropWhile isHex, prefixChar c = true) →
          ∀ c ∈ s, prefixChar c = true := by
        intro hdrop c hc
        rw [← List.takeWhile_append_dropWhile (p := isHex) (l := s)] at hc
        rcases List.mem_append.mp hc with hc | hc
        · exact prefixChar_of_takeWhile c hc
        · exact hdrop c hc
      rw [parseIPv6Groups] at h
      by_cases hlen : (s.takeWhile isHex).length = 0 ∨ 4 < (s.takeWhile isHex).length
      · simp only [if_pos hlen, reduceCtorEq] at h
      simp only [if_neg hlen] at h
      split at h
      · split_ifs at h with hpos
        obtain ⟨a, ha, -⟩ := Option.map_eq_some_iff.mp h
        exact prefixChar_of_parseIPv4 ha
      · next hd => exact key (by simp [hd])
      · cases h
      · next rest hd =>
          split_ifs at h with hell hrest
          · refine key ?_
            rw [hd, hrest]
            simp only [List.mem_cons, List.not_mem_nil, or_false, forall_eq_or_imp, forall_eq]
            exact ⟨by decide, by decide⟩
          · refine key ?_
            rw [hd]
            simp only [List.mem_cons, forall_eq_or_imp]
            exact ⟨by decide, by decide, ih h⟩
      · next rest _ _ hd =>
          refine key ?_
          rw [hd]
          simp only [List.mem_cons, forall_eq_or_imp]
          exact ⟨by decide, ih h⟩
      · cases h

/-- The characters of a readable IPv6 address, its zone cut off. -/
theorem prefixChar_of_parseIPv6Body {s : Str} {r : List ℕ × Option ℕ}
    (h : parseIPv6Body s = some r) : ∀ c ∈ s, prefixChar c = true := by
  rw [parseIPv6Body.eq_def] at h
  split at h
  · simp only [List.mem_cons, List.not_mem_nil, or_false, forall_eq_or_imp, forall_eq]
    exact ⟨by decide, by decide⟩
  · simp only [List.mem_cons, forall_eq_or_imp]
    exact ⟨by decide, by decide, prefixChar_of_parseIPv6Groups h⟩
  · exact prefixChar_of_parseIPv6Groups h

/-- The characters of a readable IPv6 address without zone. -/
theorem prefixChar_of_parseIPv6 {s : Str} {a : Addr} (h : parseIPv6 s = some a)
    (hz : a.zone = []) : ∀ c ∈ s, prefixChar c = true := by
  simp only [parseIPv6] at h
  split_ifs at h with hzone
  simp only [Option.bind_eq_bind, Option.bind_eq_some_iff] at h
  obtain ⟨groups, hgroups, ws, -, ha⟩ := h
  have hnil : (s.dropWhile (· ≠ '%')).tail = [] := by
    rw [Option.pure_def, Option.some.injEq] at ha
    rwa [← ha] at hz
  have hpct : '%' ∉ s := fun hmem => hzone ⟨hmem, hnil⟩
  have hbody : s.takeWhile (· ≠ '%') = s := by
    rw [List.takeWhile_eq_self_iff]
    intro c hc
    have hne : c ≠ '%' := fun hcp => hpct (hcp ▸ hc)
    simp [hne]
  rw [hbody] at hgroups
  exact prefixChar_of_parseIPv6Body hgroups

/-- The characters of a readable address without zone. -/
theorem prefixChar_of_parseAddr {s : Str} {a : Addr} (h : parseAddr s = some a)
    (hz : a.zone = []) : ∀ c ∈ s, prefixChar c = true := by
  rw [parseAddr] at h
  split at h
  · obtain ⟨b, hb, -⟩ := Option.map_eq_some_iff.mp h
    exact prefixChar_of_parseIPv4 hb
  · exact prefixChar_of_parseIPv6 h hz
  · cases h

/-- **The characters of a readable prefix.** -/
theorem prefixChar_of_parsePrefix {s : Str} {p : Prefix} (h : parsePrefix s = some p) :
    ∀ c ∈ s, prefixChar c = true := by
  rw [parsePrefix] at h
  split at h
  · cases h
  · next hne =>
      simp only [Option.bind_eq_bind, Option.bind_eq_some_iff] at h
      obtain ⟨a, ha, h⟩ := h
      split_ifs at h with hz
      obtain ⟨n, hn, -⟩ := Option.bind_eq_some_iff.mp h
      have hlast : (s.rdropWhile (· ≠ '/')).getLast hne = '/' := by
        simpa using List.rdropWhile_last_not _ _ hne
      intro c hc
      rw [← List.rdropWhile_append_rtakeWhile (p := (· ≠ '/')) (l := s),
        ← List.dropLast_append_getLast hne, hlast] at hc
      simp only [List.mem_append, List.mem_singleton] at hc
      rcases hc with (hc | rfl) | hc
      · exact prefixChar_of_parseAddr ha (by simpa using hz) c hc
      · decide
      · exact prefixChar_of_isDigit ((isDigit_of_canonicalNat hn).2 c hc)

/-- The text of a prefix is not empty. -/
theorem ne_nil_of_parsePrefix {s : Str} {p : Prefix} (h : parsePrefix s = some p) : s ≠ [] := by
  rintro rfl
  simp [parsePrefix] at h

/-- Characters of a prefix are not white space. -/
theorem isSpace_of_prefixChar {c : Char} (h : prefixChar c = true) : isSpace c = false := by
  have hrange : (46 ≤ c.toNat ∧ c.toNat ≤ 58) ∨ (65 ≤ c.toNat ∧ c.toNat ≤ 70) ∨
      (97 ≤ c.toNat ∧ c.toNat ≤ 102) := by
    simp only [prefixChar, isHex, Char.isDigit, Bool.or_eq_true, Bool.and_eq_true,
      decide_eq_true_eq] at h
    rcases h with (((((⟨h1, h2⟩ | ⟨h1, h2⟩) | ⟨h1, h2⟩) | rfl) | rfl) | rfl)
    · have h1 : 48 ≤ c.toNat := h1
      have h2 : c.toNat ≤ 57 := h2
      omega
    · have h1 : 97 ≤ c.toNat := h1
      have h2 : c.toNat ≤ 102 := h2
      omega
    · have h1 : 65 ≤ c.toNat := h1
      have h2 : c.toNat ≤ 70 := h2
      omega
    all_goals decide
  simp only [isSpace, List.mem_cons, List.not_mem_nil, or_false, Bool.or_eq_false_iff,
    decide_eq_false_iff_not, Bool.and_eq_false_iff]
  omega

/-- The text of a prefix contains no white space. -/
theorem noSpace_of_parsePrefix {s : Str} {p : Prefix} (h : parsePrefix s = some p) :
    NoSpace s :=
  fun c hc => isSpace_of_prefixChar (prefixChar_of_parsePrefix h c hc)

/-- The text of a prefix contains no character outside its alphabet. -/
theorem not_mem_of_parsePrefix {s : Str} {p : Prefix} (h : parsePrefix s = some p) {c : Char}
    (hc : prefixChar c = false) : c ∉ s := by
  intro hmem
  rw [prefixChar_of_parsePrefix h c hmem] at hc
  exact absurd hc (by decide)

/-- The text of an address contains no character outside its alphabet. -/
theorem not_mem_of_parseIP {s : Str} {ip : BitVec 128} (h : parseIP s = some ip) {c : Char}
    (hc : prefixChar c = false) : c ∉ s := by
  intro hmem
  rw [parseIP] at h
  split at h
  · rename_i a ha
    split_ifs at h with hz
    rw [prefixChar_of_parseAddr ha hz c hmem] at hc
    cases hc
  · cases h

/-! ### Host and port -/

/-- Cutting at a character that does not come again. -/
theorem cutLast_append {c : Char} {b : Str} (hb : c ∉ b) (a : Str) :
    cutLast c (a ++ c :: b) = some (a, b) := by
  have hnone : ∀ s : Str, c ∉ s → cutLast c s = none := by
    intro s hs
    induction s with
    | nil => rfl
    | cons x s ih =>
        rw [List.mem_cons, not_or] at hs
        rw [cutLast, ih hs.2]
        simp [Ne.symm hs.1]
  induction a with
  | nil => simp [cutLast, hnone b hb]
  | cons x a ih => rw [List.cons_append, cutLast, ih]

/-- A host without brackets, a colon and a port: they are told apart exactly when the host
contains no colon. -/
theorem splitHostPort_append {host port : Str} (hopen : '[' ∉ host) (hclose : ']' ∉ host)
    (hport : ∀ c ∈ port, c.isDigit = true) :
    splitHostPort (host ++ ':' :: port) = if ':' ∈ host then none else some (host, port) := by
  have hne : ∀ c : Char, c.isDigit = false → c ∉ port := by
    intro c hc hmem
    rw [hport c hmem] at hc
    cases hc
  have hcut : cutLast ':' (host ++ ':' :: port) = some (host, port) :=
    cutLast_append (hne ':' (by decide)) host
  have hhead : (host ++ ':' :: port).head? ≠ some '[' := by
    cases host with
    | nil => simp
    | cons x host =>
        rintro heq
        exact hopen (by simp [Option.some.inj heq])
  have hbrackets : ¬ ('[' ∈ host ++ ':' :: port ∨ ']' ∈ host ++ ':' :: port) := by
    simp [hopen, hclose, hne '[' (by decide), hne ']' (by decide)]
  rw [splitHostPort, hcut]
  simp only [if_neg hhead, hbrackets, or_false]

/-! ### CIDR texts -/

/-- A prefix that was read is valid. -/
theorem isValid_of_parsePrefix {s : Str} {p : Prefix} (h : parsePrefix s = some p) :
    p.isValid = true := by
  rw [parsePrefix] at h
  split at h
  · cases h
  · simp only [Option.bind_eq_bind, Option.bind_eq_some_iff] at h
    obtain ⟨a, -, h⟩ := h
    split_ifs at h with hz
    obtain ⟨n, -, h⟩ := Option.bind_eq_some_iff.mp h
    split_ifs at h with hn
    obtain rfl := Option.some.inj h
    exact Prefix.isValid_iff.mpr hn

/-- The text of a valid IPv4 prefix. -/
def ReadsAsIPv4 (s : Str) : Prop :=
  ∃ p, parsePrefix s = some p ∧ p.isIPv4 = true

/-- The address `x` lies in the CIDR with text `s`. -/
def InCIDR (x : BitVec 32) (s : Str) : Prop :=
  ∃ p, parsePrefix s = some p ∧ p.contains (.v4 x) = true

instance (s : Str) : Decidable (ReadsAsIPv4 s) :=
  decidable_of_iff ((parsePrefix s).any Prefix.isIPv4 = true) (by
    rw [Option.any_eq_true]
    rfl)

instance (x : BitVec 32) (s : Str) : Decidable (InCIDR x s) :=
  decidable_of_iff ((parsePrefix s).any (·.contains (.v4 x)) = true) (by
    rw [Option.any_eq_true]
    rfl)

/-- Lying in an IPv4 CIDR is lying in the block of its prefix. -/
theorem inCIDR_iff {s : Str} {p : Prefix} (h : parsePrefix s = some p) (h4 : p.isIPv4 = true)
    {x : BitVec 32} : InCIDR x s ↔ x.toNat ∈ p.block := by
  constructor
  · rintro ⟨q, hq, hx⟩
    obtain rfl : p = q := Option.some.inj (h.symm.trans hq)
    exact (Prefix.contains_iff_mem_block h4 x).mp hx
  · exact fun hx => ⟨p, h, (Prefix.contains_iff_mem_block h4 x).mpr hx⟩

/-- Only an IPv4 prefix contains an IPv4 address. -/
theorem Prefix.isIPv4_of_contains {p : Prefix} {x : BitVec 32}
    (h : p.contains (.v4 x) = true) : p.isIPv4 = true := by
  obtain ⟨a | ⟨a, z⟩, n⟩ := p
  · simp only [contains, Bool.and_eq_true] at h
    exact h.1
  · simp [contains] at h

/-- Only an IPv4 CIDR contains an IPv4 address. -/
theorem InCIDR.readsAsIPv4 {s : Str} {x : BitVec 32} (h : InCIDR x s) : ReadsAsIPv4 s := by
  obtain ⟨p, hp, hx⟩ := h
  exact ⟨p, hp, Prefix.isIPv4_of_contains hx⟩

/-- A CIDR contains what a CIDR inside it contains. -/
theorem InCIDR.of_contains {s t : Str} {p q : Prefix} (hp : parsePrefix s = some p)
    (hq : parsePrefix t = some q) (hp4 : p.isIPv4 = true) (hq4 : q.isIPv4 = true)
    (h : q.bits ≤ p.bits ∧ q.contains p.addr = true) {x : BitVec 32} (hx : InCIDR x s) :
    InCIDR x t :=
  (inCIDR_iff hq hq4).mpr
    (Dyadic.Block.mem_of_covers ((Prefix.covers_iff hq4 hp4).mp h) ((inCIDR_iff hp hp4).mp hx))

/-- The text of an IPv4 CIDR is not empty. -/
theorem ReadsAsIPv4.ne_nil {s : Str} (h : ReadsAsIPv4 s) : s ≠ [] := by
  obtain ⟨p, hp, -⟩ := h
  exact ne_nil_of_parsePrefix hp

/-- Every IPv4 CIDR contains an address. -/
theorem ReadsAsIPv4.exists_inCIDR {s : Str} (h : ReadsAsIPv4 s) : ∃ x, InCIDR x s := by
  obtain ⟨p, hp, h4⟩ := h
  obtain ⟨a, n, rfl, hn⟩ := Prefix.isIPv4_iff.mp h4
  exact ⟨a, (inCIDR_iff hp h4).mpr (Prefix.addr_mem_block hn)⟩

end Netip
