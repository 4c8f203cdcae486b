import Mathlib.Algebra.Order.BigOperators.Group.List
import Mathlib.Data.Nat.Digits.Defs
import ScionOperator.MinimalCover

/-!
# The Recursion of the Subtraction

`subtractCIDRs` halves a prefix again and again, until an exclude covers it or no exclude
overlaps it. This module looks at the recursion itself: which prefixes it visits, that each of
them is an aligned prefix between the base and a single address, so that the address of an upper
half is always found inside the four bytes, and how many prefixes it emits.

The prefixes that are visited form a relation, `Visits`, which follows the calls of `walk`; what
the walk returns are those of them that no exclude overlaps (`mem_walk_iff`). A single address is
covered by every exclude that overlaps it, so the branch for addresses that cannot be halved is
never taken.

## Main results

* `mem_walk_iff`: the walk returns the visited prefixes that no exclude overlaps.
* `walk_safe`: **the recursion is safe**: it ends, and every prefix it visits is `SafeAt`.
* `length_subtractCIDRs_le`: **the accepted set is linear in the deny list.**
-/

namespace ScionOperator

open Text Netip Dyadic

/-! ### What is visited -/

section Recursion

variable (ex : List Prefix)

/-- An exclude covers all of a prefix. -/
def Covered (p : Prefix) : Prop :=
  (ex.any fun e => e.bits ≤ p.bits && e.contains p.addr) = true

/-- An exclude overlaps a prefix. -/
def Overlapped (p : Prefix) : Prop :=
  (ex.any fun e => p.overlaps e) = true

/-- A prefix is halved: it is not covered, but overlapped, and not a single address. -/
def Splits (p : Prefix) : Prop :=
  ¬ Covered ex p ∧ Overlapped ex p ∧ ¬ 32 ≤ p.bits

/-- A prefix is dropped as a single address that is overlapped, though no exclude covers it. -/
def Dropped (p : Prefix) : Prop :=
  ¬ Covered ex p ∧ Overlapped ex p ∧ 32 ≤ p.bits

/-- The lower half of a prefix, as the walk builds it. -/
def lowerHalf (p : Prefix) : Prefix :=
  ⟨p.addr, p.bits + 1⟩

/-- The walk on a prefix comes to another one. -/
inductive Visits : Prefix → Prefix → Prop
  | self (p : Prefix) : Visits p p
  | left {p q : Prefix} (split : Splits ex p) (visits : Visits (lowerHalf p) q) : Visits p q
  | right {p q : Prefix} {up : Addr} (split : Splits ex p) (half : upperHalfAddr p = some up)
      (visits : Visits ⟨up, p.bits + 1⟩ q) : Visits p q

variable {ex}

/-- Where a prefix is not halved, the walk goes no further. -/
theorem Visits.eq_of_not_splits {p q : Prefix} (h : Visits ex p q) (hp : ¬ Splits ex p) :
    q = p := by
  cases h with
  | self => rfl
  | left split => exact absurd split hp
  | right split => exact absurd split hp

/-- Where a prefix is halved, the walk goes on with the halves. -/
theorem visits_iff_of_splits {p q : Prefix} {up : Addr} (hp : Splits ex p)
    (hup : upperHalfAddr p = some up) :
    Visits ex p q ↔ q = p ∨ Visits ex (lowerHalf p) q ∨ Visits ex ⟨up, p.bits + 1⟩ q := by
  constructor
  · intro h
    cases h with
    | self => exact .inl rfl
    | left _ visits => exact .inr (.inl visits)
    | right _ half visits =>
        obtain rfl := Option.some.inj (hup.symm.trans half)
        exact .inr (.inr visits)
  · rintro (rfl | h | h)
    · exact .self _
    · exact .left hp h
    · exact .right hp hup h

/-- **What a call of the walk does**: nothing, if the prefix is covered; emit it, if nothing
overlaps it; drop it; or go on with its halves. -/
theorem walk_cases {fuel : ℕ} {p : Prefix} {out : List Prefix}
    (h : walk ex (fuel + 1) p = some out) :
    (Covered ex p ∧ out = []) ∨ (¬ Covered ex p ∧ ¬ Overlapped ex p ∧ out = [p]) ∨
      (Dropped ex p ∧ out = []) ∨
      (Splits ex p ∧ ∃ left up right, walk ex fuel (lowerHalf p) = some left ∧
        upperHalfAddr p = some up ∧ walk ex fuel ⟨up, p.bits + 1⟩ = some right ∧
        out = left ++ right) := by
  rw [walk] at h
  split_ifs at h with hcov hov hbits
  · exact .inl ⟨hcov, (Option.some.inj h).symm⟩
  · have hnone : ¬ Overlapped ex p := Bool.eq_false_iff.mp (by simpa using hov)
    exact .inr (.inl ⟨hcov, hnone, (Option.some.inj h).symm⟩)
  all_goals have hsome : Overlapped ex p := Bool.of_not_eq_false (by simpa using hov)
  · exact .inr (.inr (.inl ⟨⟨hcov, hsome, hbits⟩, (Option.some.inj h).symm⟩))
  · simp only [Option.bind_eq_bind, Option.bind_eq_some_iff, Option.pure_def,
      Option.some.injEq] at h
    obtain ⟨left, hleft, up, hup, right, hright, hout⟩ := h
    exact .inr (.inr (.inr ⟨⟨hcov, hsome, hbits⟩, left, up, right, hleft, hup, hright, hout.symm⟩))

/-- **What the walk returns** are the visited prefixes that no exclude covers or overlaps. -/
theorem mem_walk_iff {fuel : ℕ} {p : Prefix} {out : List Prefix}
    (h : walk ex fuel p = some out) {q : Prefix} :
    q ∈ out ↔ Visits ex p q ∧ ¬ Covered ex q ∧ ¬ Overlapped ex q := by
  induction fuel generalizing p out with
  | zero => cases h
  | succ fuel ih =>
      rcases walk_cases h with ⟨hcov, rfl⟩ | ⟨hcov, hov, rfl⟩ | ⟨hdropped, rfl⟩ |
        ⟨hsplits, left, up, right, hleft, hup, hright, rfl⟩
      · refine iff_of_false List.not_mem_nil fun ⟨hvisits, hnot, _⟩ => ?_
        rw [hvisits.eq_of_not_splits fun hs => hs.1 hcov] at hnot
        exact hnot hcov
      · rw [List.mem_singleton]
        constructor
        · rintro rfl
          exact ⟨.self _, hcov, hov⟩
        · exact fun ⟨hvisits, _⟩ => hvisits.eq_of_not_splits fun hs => hov hs.2.1
      · refine iff_of_false List.not_mem_nil fun ⟨hvisits, _, hnot⟩ => ?_
        rw [hvisits.eq_of_not_splits fun hs => hs.2.2 hdropped.2.2] at hnot
        exact hnot hdropped.2.1
      · rw [List.mem_append, ih hleft, ih hright, visits_iff_of_splits hsplits hup]
        constructor
        · rintro (⟨hvisits, hemits⟩ | ⟨hvisits, hemits⟩)
          · exact ⟨.inr (.inl hvisits), hemits⟩
          · exact ⟨.inr (.inr hvisits), hemits⟩
        · rintro ⟨rfl | hvisits | hvisits, hemits⟩
          · exact absurd hsplits.2.1 hemits.2
          · exact .inl ⟨hvisits, hemits⟩
          · exact .inr ⟨hvisits, hemits⟩

end Recursion

/-! ### Safety -/

/-- What holds of a prefix that the walk visits. -/
structure SafeAt (ex : List Prefix) (base p : Prefix) : Prop where
  /-- it is a valid IPv4 prefix -/
  isIPv4 : p.isIPv4 = true
  /-- it has no host bits -/
  masked_eq : p.masked = p
  /-- it is at least as long as the base -/
  base_le : base.bits ≤ p.bits
  /-- it is at most as long as an address -/
  bits_le : p.bits ≤ 32
  /-- it is halved only if it is shorter, and then the bit to set is in one of the four bytes,
  and each of its addresses is in exactly one of its halves -/
  halves : Splits ex p → p.bits ≤ 31 ∧ p.bits / 8 < 4 ∧ ∃ up, upperHalfAddr p = some up ∧
    ∀ x, (p.contains (.v4 x) = true ↔
        (lowerHalf p).contains (.v4 x) = true ∨
          (Prefix.mk up (p.bits + 1)).contains (.v4 x) = true) ∧
      ¬ ((lowerHalf p).contains (.v4 x) = true ∧
        (Prefix.mk up (p.bits + 1)).contains (.v4 x) = true)
  /-- it is not dropped without an exclude that covers it -/
  not_dropped : ¬ Dropped ex p

section Safety

variable {ex : List Prefix} {b p : Prefix}

/-- An aligned prefix that is halved has two aligned halves, and they partition it. -/
theorem Aligned.halves (h : Aligned p) (hp : Splits ex p) :
    Aligned (lowerHalf p) ∧ ∃ up, upperHalfAddr p = some up ∧ Aligned ⟨up, p.bits + 1⟩ ∧
      ∀ x, (p.contains (.v4 x) = true ↔ (lowerHalf p).contains (.v4 x) = true ∨
          (Prefix.mk up (p.bits + 1)).contains (.v4 x) = true) ∧
        ¬ ((lowerHalf p).contains (.v4 x) = true ∧
          (Prefix.mk up (p.bits + 1)).contains (.v4 x) = true) := by
  have hbits : p.block.bits < 32 := by
    rw [h.block_bits]
    exact not_le.mp hp.2.2
  obtain ⟨hl, hlb⟩ := h.left hbits
  obtain ⟨up, hup, hr, hrb⟩ := h.right hbits
  refine ⟨hl, up, hup, hr, fun x => ?_⟩
  rw [Prefix.contains_iff_mem_block h.isIPv4, Prefix.contains_iff_mem_block hr.isIPv4,
    Prefix.contains_iff_mem_block (p := lowerHalf p) hl.isIPv4, hrb, lowerHalf, hlb]
  exact ⟨Block.mem_iff_left_or_right hbits, fun hboth =>
    Block.not_mem_right_of_mem_left hbits hboth.1 hboth.2⟩

/-- **What is visited is aligned**, and at least as long as the base. -/
theorem Visits.aligned (h : Visits ex b p) (hb : Aligned b) : Aligned p ∧ b.bits ≤ p.bits := by
  induction h with
  | self => exact ⟨hb, le_rfl⟩
  | left split visits ih =>
      obtain ⟨hp, hle⟩ := ih (hb.halves split).1
      exact ⟨hp, Nat.le_of_succ_le hle⟩
  | right split half visits ih =>
      obtain ⟨-, up, hup, hal, -⟩ := hb.halves split
      obtain rfl := Option.some.inj (hup.symm.trans half)
      obtain ⟨hp, hle⟩ := ih hal
      exact ⟨hp, Nat.le_of_succ_le hle⟩

/-- An exclude that overlaps a single address covers it. -/
theorem Aligned.not_dropped (hex : ∀ e ∈ ex, e.isIPv4 = true) (h : Aligned p) :
    ¬ Dropped ex p := by
  rintro ⟨hcov, hov, hbits⟩
  refine hcov ((any_covers_iff hex h.isIPv4).mpr ?_)
  obtain ⟨e, he, hpe⟩ := List.any_eq_true.mp hov
  obtain ⟨a, hap, hae⟩ := (Prefix.overlaps_iff_block h.isIPv4 (hex e he)).mp hpe
  have hfull : ¬ p.block.bits < 32 := by
    rw [h.block_bits]
    exact not_lt.mpr hbits
  exact ⟨e.block, List.mem_map_of_mem he, Block.covers_of_overlaps_of_full hfull ⟨a, hae, hap⟩⟩

/-- Every prefix that is visited from a base without its host bits is safe. -/
theorem Visits.safeAt (hex : ∀ e ∈ ex, e.isIPv4 = true) (hb : Aligned b.masked)
    (h : Visits ex b.masked p) : SafeAt ex b p := by
  obtain ⟨hp, hle⟩ := h.aligned hb
  have hbits : p.bits ≤ 32 := by
    rw [← hp.block_bits]
    exact p.block.bits_le
  refine ⟨hp.isIPv4, (aligned_iff.mp hp).2, hle, hbits, fun hs => ?_, hp.not_dropped hex⟩
  have hlt : p.bits < 32 := not_le.mp hs.2.2
  obtain ⟨-, up, hup, -, hpartition⟩ := hp.halves hs
  exact ⟨Nat.le_of_lt_succ hlt, by omega, up, hup, hpartition⟩

end Safety

/-- **The recursion is safe.** For every IPv4 base and IPv4 excludes the walk ends, after at most
33 nested calls, and returns the visited prefixes that no exclude covers or overlaps, which are
those that are listed; and every prefix it visits is safe. -/
theorem walk_safe {base : Str} (hbase : ReadsAsIPv4 base) {excludes : List Str}
    (hex : ∀ c ∈ excludes, ReadsAsIPv4 c) :
    ∃ b ex out, parsePrefix base = some b ∧ excludes.mapM parseExclude = .ok ex ∧
      walk ex 33 b.masked = some out ∧
      subtractCIDRs base excludes = .ok (sortStrings (out.map Prefix.string)) ∧
      (∀ q, q ∈ out ↔ Visits ex b.masked q ∧ ¬ Covered ex q ∧ ¬ Overlapped ex q) ∧
      ∀ p, Visits ex b.masked p → SafeAt ex b p := by
  obtain ⟨b, hb, hb4⟩ := hbase
  obtain ⟨ex, hmap, hex4, -⟩ := mapM_parseExclude hex
  have hal := aligned_masked hb4
  obtain ⟨out, hwalk, -, -⟩ := walk_eq_subtract hex4 33 b.masked hal (by omega)
  exact ⟨b, ex, out, hb, hmap, hwalk, subtractCIDRs_of_walk hb hb4 hmap hwalk,
    fun q => mem_walk_iff hwalk, fun p hp => hp.safeAt hex4 hal⟩

/-- The walk around one of four addresses. -/
theorem walk_safe_of_four :
    ∃ b ex out, parsePrefix "10.0.0.3/30".toList = some b ∧
      walk ex 33 b.masked = some out ∧
      ∀ p, Visits ex b.masked p → b.bits ≤ p.bits ∧ p.bits ≤ 32 ∧ ¬ Dropped ex p := by
  obtain ⟨b, ex, out, hb, -, hwalk, -, -, hsafe⟩ :=
    @walk_safe "10.0.0.3/30".toList (by decide) ["10.0.0.1/32".toList] (by decide)
  exact ⟨b, ex, out, hb, hwalk, fun p hp =>
    ⟨(hsafe p hp).base_le, (hsafe p hp).bits_le, (hsafe p hp).not_dropped⟩⟩

/-! ### The size of the accepted set -/

/-- The length of a CIDR. -/
def prefixLength (cidr : Str) : ℕ :=
  match parsePrefix cidr with
  | some p => p.bits
  | none => 0

/-- An IPv4 CIDR is at most as long as an address. -/
theorem prefixLength_le {cidr : Str} (h : ReadsAsIPv4 cidr) : prefixLength cidr ≤ 32 := by
  obtain ⟨p, hp, h4⟩ := h
  obtain ⟨a, n, rfl, hn⟩ := Prefix.isIPv4_iff.mp h4
  rw [prefixLength, hp]
  exact hn

/-- The excludes that are read are as long as their texts say. -/
theorem map_bits_eq_prefixLength {excludes : List Str} {ex : List Prefix}
    (h : excludes.mapM parseExclude = .ok ex) : ex.map Prefix.bits = excludes.map prefixLength := by
  rw [Result.mapM_eq_ok_iff] at h
  induction h with
  | nil => rfl
  | cons hread _ ih =>
      obtain ⟨p, hp, -, rfl⟩ := parseExclude_eq_ok.mp hread
      rw [List.map_cons, List.map_cons, ih, prefixLength, hp]
      rfl

/-- Taking prefixes out of the whole space costs their lengths. -/
theorem weight_map_block {b : Block 32} (hb : b.bits = 0) {ex : List Prefix}
    (hex : ∀ e ∈ ex, e.isIPv4 = true) :
    b.weight (ex.map Prefix.block) = (ex.map Prefix.bits).sum := by
  induction ex with
  | nil => rfl
  | cons e ex ih =>
      rw [List.forall_mem_cons] at hex
      obtain ⟨a, n, rfl, hn⟩ := Prefix.isIPv4_iff.mp hex.1
      rw [List.map_cons, List.map_cons, List.sum_cons, Block.weight, ih hex.2,
        if_pos (Block.covers_of_bits_eq_zero hb _), hb, (Prefix.block_v4 hn).1, Nat.sub_zero]

/-- The walk over the whole space returns at most as many prefixes as the excludes have bits. -/
theorem length_walk_le {ex out : List Prefix} (hne : ex ≠ []) (hex : ∀ e ∈ ex, e.isIPv4 = true)
    {b : Prefix} (hb : b.block.bits = 0)
    (hblocks : out.map Prefix.block = subtract (ex.map Prefix.block) b.block) :
    out.length ≤ (ex.map Prefix.bits).sum := by
  obtain ⟨e, ex', rfl⟩ := List.exists_cons_of_ne_nil hne
  have hinside : 0 < b.block.inside ((e :: ex').map Prefix.block) :=
    List.countP_pos_iff.mpr ⟨e.block, List.mem_cons_self,
      decide_eq_true (Block.covers_of_bits_eq_zero hb _)⟩
  have hle := length_subtract_le ((e :: ex').map Prefix.block) b.block
  rw [← hblocks, List.length_map, weight_map_block hb hex] at hle
  omega

/-- A printed number below a thousand has at most three digits. -/
theorem length_itoa_le {n : ℕ} (hn : n < 1000) : (itoa n).length ≤ 3 :=
  Nat.toDigits_length 10 n 3 (by decide) hn

/-- The text of an IPv4 prefix has at most 19 characters. -/
theorem length_string_le {p : Prefix} (h : p.isIPv4 = true) : p.string.length ≤ 19 := by
  obtain ⟨a, n, rfl, hn⟩ := Prefix.isIPv4_iff.mp h
  have hbyte : ∀ b : BitVec 8, (itoa b.toNat).length ≤ 3 := fun b =>
    length_itoa_le (by have := b.isLt; omega)
  have hbits : (itoa n).length ≤ 3 := length_itoa_le (by omega)
  have h₀ := hbyte (a.extractLsb' 24 8)
  have h₁ := hbyte (a.extractLsb' 16 8)
  have h₂ := hbyte (a.extractLsb' 8 8)
  have h₃ := hbyte (a.extractLsb' 0 8)
  rw [Prefix.string, if_pos (Prefix.isValid_iff.mpr hn)]
  simp only [Addr.string, string4, as4, List.map_cons, List.map_nil, join,
    List.intercalate_cons_cons, List.intercalate_singleton, List.length_append, List.length_cons,
    List.length_nil]
  omega

/-- A list of texts, joined, is at most as long as its texts and separators. -/
theorem length_join_le {sep : Char} {k : ℕ} {l : List Str} (h : ∀ s ∈ l, s.length ≤ k) :
    (join sep l).length ≤ (k + 1) * l.length := by
  induction l with
  | nil => exact Nat.zero_le _
  | cons s l ih =>
      rw [List.forall_mem_cons] at h
      rcases eq_or_ne l [] with rfl | hne
      · simp only [join, List.intercalate_singleton, List.length_singleton]
        omega
      · have ih := ih h.2
        rw [join_cons s hne, List.length_append, List.length_cons, List.length_cons,
          Nat.mul_succ]
        omega

/-- **The accepted set is linear in the deny list.** For any IPv4 excludes, at least one, the
subtraction from the whole space lists at most as many prefixes as the excludes have bits, at
most 32 for each; so the line that accepts them is at most 640 characters for each exclude
longer than its first three fields. -/
theorem length_subtractCIDRs_le {excludes : List Str} (hne : excludes ≠ [])
    (hex : ∀ c ∈ excludes, ReadsAsIPv4 c) :
    ∃ nets, subtractCIDRs "0.0.0.0/0".toList excludes = .ok nets ∧
      nets.length ≤ (excludes.map prefixLength).sum ∧
      (excludes.map prefixLength).sum ≤ 32 * excludes.length ∧
      ∀ remote localIA, (ruleLine acceptWord remote localIA (join ',' nets)).length ≤
        (ruleLine acceptWord remote localIA []).length + 640 * excludes.length := by
  obtain ⟨ex, hmap, hex4, -⟩ := mapM_parseExclude hex
  have hb4 : (Prefix.mk (.v4 0#32) 0).isIPv4 = true := rfl
  obtain ⟨out, hwalk, hal, hblocks⟩ :=
    walk_eq_subtract hex4 33 _ (aligned_masked hb4) (by omega)
  have hbits := map_bits_eq_prefixLength hmap
  have hne' : ex ≠ [] := by
    rintro rfl
    exact hne (List.map_eq_nil_iff.mp hbits.symm)
  have hlength : out.length ≤ (excludes.map prefixLength).sum :=
    hbits ▸ length_walk_le hne' hex4 rfl hblocks
  have hsum : (excludes.map prefixLength).sum ≤ 32 * excludes.length := by
    have hle : ∀ n ∈ excludes.map prefixLength, n ≤ 32 := by
      intro n hn
      obtain ⟨c, hc, rfl⟩ := List.mem_map.mp hn
      exact prefixLength_le (hex c hc)
    have hcard := List.sum_le_card_nsmul _ 32 hle
    rwa [List.length_map, smul_eq_mul, Nat.mul_comm] at hcard
  have hnets : (sortStrings (out.map Prefix.string)).length ≤ (excludes.map prefixLength).sum := by
    rwa [sortStrings, List.length_insertionSort, List.length_map]
  refine ⟨_, subtractCIDRs_of_walk parsePrefix_default hb4 hmap hwalk, hnets, hsum, ?_⟩
  intro remote localIA
  have hjoin : (join ',' (sortStrings (out.map Prefix.string))).length ≤
      20 * (sortStrings (out.map Prefix.string)).length := by
    refine length_join_le fun s hs => ?_
    obtain ⟨q, hq, rfl⟩ := List.mem_map.mp (mem_sortStrings.mp hs)
    exact length_string_le (hal q hq).isIPv4
  simp only [ruleLine, List.length_append, List.length_cons, List.length_nil]
  omega

/-- Around one address there are 32 prefixes. -/
theorem length_subtractCIDRs_le_at_host :
    ∃ nets, subtractCIDRs "0.0.0.0/0".toList ["10.0.0.1/32".toList] = .ok nets ∧
      nets.length ≤ 32 := by
  obtain ⟨nets, hnets, hlength, -⟩ :=
    @length_subtractCIDRs_le ["10.0.0.1/32".toList] (by decide) (by decide)
  have hsum : (["10.0.0.1/32".toList].map prefixLength).sum = 32 := by decide
  exact ⟨nets, hnets, hsum ▸ hlength⟩

end ScionOperator
