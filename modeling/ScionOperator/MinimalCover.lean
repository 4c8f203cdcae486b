import ScionOperator.RoutingPolicy

/-!
# The Minimal Cover

What `subtractCIDRs` promises: the prefixes it lists hold exactly the addresses of the base in
no exclude, and no shorter list does. Halving yields that because a prefix is emitted as soon
as it avoids every exclude: the emitted prefixes are the maximal ones inside the difference, so
that every prefix of any other list lies in one of them. They are also determined by the
difference alone, whichever way the excludes are written.

## Main results

* `mem_subtractCIDRs_iff`: **the subtraction is exact**, for every base.
* `isMinimalCover_subtractCIDRs`: **it is the minimal cover** of the difference.
* `canonical_of_sameWithin`: **equal sets of excluded addresses give equal results.**
* `prepare_succeeds_iff`: when `prepare` succeeds, and when its overlap check fails.
-/

namespace ScionOperator

open Text Netip Dyadic

/-- The addresses of a base that are in no exclude. -/
def Remains (base : Str) (excludes : List Str) (x : BitVec 32) : Prop :=
  InCIDR x base ∧ ∀ c ∈ excludes, ¬ InCIDR x c

/-! ### Exactness -/

/-- The addresses of the listed texts are those of the prefixes they were written from. -/
theorem mem_texts_iff {out : List Prefix} (hal : ∀ q ∈ out, Aligned q) (x : BitVec 32) :
    (∃ s ∈ sortStrings (out.map Prefix.string), InCIDR x s) ↔ ∃ q ∈ out, x.toNat ∈ q.block := by
  simp only [mem_sortStrings, List.mem_map, exists_exists_and_eq_and]
  refine exists_congr fun q => and_congr_right fun hq => ?_
  have hq4 := (hal q hq).isIPv4
  exact inCIDR_iff (parsePrefix_string hq4) hq4

/-- **Exact subtraction.** For an IPv4 base and IPv4 excludes the subtraction succeeds, and an
address is in one of the prefixes it lists exactly if it is in the base and in no exclude. -/
theorem mem_subtractCIDRs_iff {base : Str} {excludes : List Str} (hbase : ReadsAsIPv4 base)
    (hex : ∀ c ∈ excludes, ReadsAsIPv4 c) :
    ∃ nets, subtractCIDRs base excludes = .ok nets ∧ (∀ s ∈ nets, ReadsAsIPv4 s) ∧
      ∀ x, (∃ s ∈ nets, InCIDR x s) ↔ Remains base excludes x := by
  obtain ⟨b, hb, hb4⟩ := hbase
  obtain ⟨out, hout, hal, hmem⟩ := subtractCIDRs_eq_ok hb hb4 hex
  refine ⟨_, hout, ?_, fun x => ?_⟩
  · intro s hs
    obtain ⟨q, hq, rfl⟩ := List.mem_map.mp (mem_sortStrings.mp hs)
    have hq4 := (hal q hq).isIPv4
    exact ⟨q, parsePrefix_string hq4, hq4⟩
  · rw [mem_texts_iff hal, hmem, Remains, inCIDR_iff hb hb4]

/-- Host bits, repetitions and excludes outside the base do not matter. -/
theorem mem_subtractCIDRs_of_overlapping :
    ∃ nets, subtractCIDRs "10.0.0.3/30".toList
        ["10.0.0.1/31".toList, "10.0.0.0/32".toList, "192.0.2.0/24".toList] = .ok nets ∧
      ∀ x, (∃ s ∈ nets, InCIDR x s) ↔ Remains "10.0.0.3/30".toList
        ["10.0.0.1/31".toList, "10.0.0.0/32".toList, "192.0.2.0/24".toList] x := by
  obtain ⟨nets, hnets, -, hmem⟩ := @mem_subtractCIDRs_iff "10.0.0.3/30".toList
    ["10.0.0.1/31".toList, "10.0.0.0/32".toList, "192.0.2.0/24".toList] (by decide) (by decide)
  exact ⟨nets, hnets, hmem⟩

/-! ### Minimality -/

/-- Two CIDRs without a common address. -/
def Apart (s t : Str) : Prop :=
  ∀ x, InCIDR x s → ¬ InCIDR x t

instance : Std.Symm Apart :=
  ⟨fun _ _ h x ht hs => h x hs ht⟩

/-- A list of CIDRs is the minimal cover of a set of addresses. -/
structure IsMinimalCover (addresses : BitVec 32 → Prop) (nets : List Str) : Prop where
  /-- together they hold the addresses of the set -/
  mem_iff : ∀ x, (∃ s ∈ nets, InCIDR x s) ↔ addresses x
  /-- no two of them share an address -/
  apart : nets.Pairwise Apart
  /-- none has host bits -/
  aligned : ∀ s ∈ nets, ∃ p, parsePrefix s = some p ∧ p.isIPv4 = true ∧ p.masked = p
  /-- every prefix without host bits inside the set is in exactly one of them -/
  maximal : ∀ p : Prefix, p.isIPv4 = true → p.masked = p →
    (∀ x, p.contains (.v4 x) = true → addresses x) →
    ∃! s, s ∈ nets ∧ ∀ x, p.contains (.v4 x) = true → InCIDR x s
  /-- no list of prefixes that holds the same addresses is shorter -/
  shortest : ∀ prefixes : List Prefix,
    (∀ x, (∃ q ∈ prefixes, q.contains (.v4 x) = true) ↔ addresses x) →
    nets.length ≤ prefixes.length

/-- The prefixes without host bits. -/
theorem aligned_iff {p : Prefix} : Aligned p ↔ p.isIPv4 = true ∧ p.masked = p := by
  constructor
  · intro h
    refine ⟨h.isIPv4, ?_⟩
    obtain ⟨a, n, rfl, -, hdvd⟩ := h
    have ha : a &&& mask 32 n = a := by
      rw [← BitVec.toNat_inj, toNat_and_mask, Nat.div_mul_cancel hdvd]
    rw [Prefix.masked, Addr.masked, ha]
  · rintro ⟨h4, hmasked⟩
    rw [← hmasked]
    exact aligned_masked h4

section Difference

variable {base : Str} {b : Prefix} {excludes : List Str} {ex : List (Block 32)}

/-- What remains, as addresses of blocks. -/
theorem remains_iff (hb : parsePrefix base = some b) (hb4 : b.isIPv4 = true)
    (hmem : ∀ x : BitVec 32, (∃ e ∈ ex, x.toNat ∈ e) ↔ ∃ c ∈ excludes, InCIDR x c)
    {x : BitVec 32} :
    Remains base excludes x ↔ x.toNat ∈ b.block ∧ ∀ e ∈ ex, x.toNat ∉ e := by
  have hx := not_congr (hmem x)
  push Not at hx
  rw [Remains, inCIDR_iff hb hb4, hx]

/-- A prefix inside what remains lies in a block of the difference. -/
theorem exists_covers_of_remains (hb : parsePrefix base = some b) (hb4 : b.isIPv4 = true)
    (hmem : ∀ x : BitVec 32, (∃ e ∈ ex, x.toNat ∈ e) ↔ ∃ c ∈ excludes, InCIDR x c)
    {p : Prefix} (hp : p.isIPv4 = true)
    (hinside : ∀ x, p.contains (.v4 x) = true → Remains base excludes x) :
    ∃ d ∈ subtract ex b.block, d.Covers p.block := by
  refine exists_covers_of_avoids fun a ha => ?_
  have hval := toNat_ofNat_of_mem ha
  have hx := hinside (BitVec.ofNat 32 a)
    ((Prefix.contains_iff_mem_block hp _).mpr (by rwa [hval]))
  rwa [remains_iff hb hb4 hmem, hval] at hx

end Difference

/-- The texts of prefixes with disjoint blocks are apart, in any order. -/
theorem pairwise_apart_sortStrings {out : List Prefix} (hal : ∀ q ∈ out, Aligned q)
    (h : (out.map Prefix.block).Pairwise Block.Disjoint) :
    (sortStrings (out.map Prefix.string)).Pairwise Apart := by
  rw [sortStrings, (List.perm_insertionSort _ _).pairwise_iff fun h => Std.Symm.symm _ _ h,
    List.pairwise_map]
  rw [List.pairwise_map] at h
  refine h.imp_of_mem fun {p q} hp hq hdisj x hxp hxq => ?_
  have hp4 := (hal p hp).isIPv4
  have hq4 := (hal q hq).isIPv4
  rw [inCIDR_iff (parsePrefix_string hp4) hp4] at hxp
  rw [inCIDR_iff (parsePrefix_string hq4) hq4] at hxq
  exact hdisj _ hxp hxq

section Texts

variable {out : List Prefix} {addresses : BitVec 32 → Prop}

/-- A prefix in one of disjoint prefixes is in exactly one of their texts: two would share its
first address. -/
theorem existsUnique_text (hal : ∀ q ∈ out, Aligned q)
    (hdisj : (out.map Prefix.block).Pairwise Block.Disjoint) {p q : Prefix}
    (hp : p.isIPv4 = true) (hq : q ∈ out) (hcov : q.block.Covers p.block) :
    ∃! s, s ∈ sortStrings (out.map Prefix.string) ∧
      ∀ x, p.contains (.v4 x) = true → InCIDR x s := by
  have hin : ∀ x, p.contains (.v4 x) = true → InCIDR x q.string := by
    intro x hx
    have hq4 := (hal q hq).isIPv4
    rw [inCIDR_iff (parsePrefix_string hq4) hq4]
    exact Block.mem_of_covers hcov ((Prefix.contains_iff_mem_block hp x).mp hx)
  have hmemq : q.string ∈ sortStrings (out.map Prefix.string) :=
    mem_sortStrings.mpr (List.mem_map_of_mem hq)
  refine ⟨q.string, ⟨hmemq, hin⟩, ?_⟩
  rintro s ⟨hs, hins⟩
  by_contra hne
  have hbase := p.block.base_mem
  have hcontains : p.contains (.v4 (BitVec.ofNat 32 p.block.base)) = true := by
    rw [Prefix.contains_iff_mem_block hp, toNat_ofNat_of_mem hbase]
    exact hbase
  exact (pairwise_apart_sortStrings hal hdisj).forall hs hmemq hne _ (hins _ hcontains)
    (hin _ hcontains)

/-- Disjoint prefixes, one around every prefix inside a set, are at most as many as any
prefixes that hold the same set. -/
theorem length_le_of_same (hdisj : (out.map Prefix.block).Pairwise Block.Disjoint)
    (hmem : ∀ x : BitVec 32, (∃ q ∈ out, x.toNat ∈ q.block) ↔ addresses x)
    (hcover : ∀ p : Prefix, p.isIPv4 = true → (∀ x, p.contains (.v4 x) = true → addresses x) →
      ∃ q ∈ out, q.block.Covers p.block)
    {prefixes : List Prefix}
    (hsame : ∀ x, (∃ q ∈ prefixes, q.contains (.v4 x) = true) ↔ addresses x) :
    out.length ≤ prefixes.length := by
  have hle : (out.map Prefix.block).length ≤
      ((prefixes.filter Prefix.isIPv4).map Prefix.block).length := by
    refine length_le_of_covers hdisj ?_ ?_
    · intro c hc
      obtain ⟨p, hp, rfl⟩ := List.mem_map.mp hc
      obtain ⟨hmemp, hp4⟩ := List.mem_filter.mp hp
      obtain ⟨q, hq, hcov⟩ := hcover p hp4 fun x hx => (hsame x).mp ⟨p, hmemp, hx⟩
      exact ⟨q.block, List.mem_map_of_mem hq, hcov⟩
    · intro d hd
      obtain ⟨q, hq, rfl⟩ := List.mem_map.mp hd
      have hbase := q.block.base_mem
      have hval := toNat_ofNat_of_mem hbase
      obtain ⟨p, hp, hcontains⟩ := (hsame (BitVec.ofNat 32 q.block.base)).mpr
        ((hmem _).mp ⟨q, hq, by rwa [hval]⟩)
      have hp4 := Prefix.isIPv4_of_contains hcontains
      rw [Prefix.contains_iff_mem_block hp4, hval] at hcontains
      exact ⟨p.block, List.mem_map_of_mem (List.mem_filter.mpr ⟨hp, hp4⟩), _, hbase, hcontains⟩
  rw [List.length_map, List.length_map] at hle
  exact hle.trans (List.length_filter_le _ _)

end Texts

/-- **The minimal cover.** For an IPv4 base and IPv4 excludes the subtraction lists the minimal
cover of what remains. -/
theorem isMinimalCover_subtractCIDRs {base : Str} {excludes : List Str}
    (hbase : ReadsAsIPv4 base) (hex : ∀ c ∈ excludes, ReadsAsIPv4 c) :
    ∃ nets, subtractCIDRs base excludes = .ok nets ∧
      IsMinimalCover (Remains base excludes) nets := by
  obtain ⟨b, hb, hb4⟩ := hbase
  obtain ⟨ex, out, hout, hal, hblocks, hmem⟩ := subtractCIDRs_eq_subtract hb hb4 hex
  have hdisj : (out.map Prefix.block).Pairwise Block.Disjoint :=
    hblocks ▸ pairwise_disjoint_subtract ex b.block
  have hremains : ∀ x : BitVec 32,
      (∃ q ∈ out, x.toNat ∈ q.block) ↔ Remains base excludes x := by
    intro x
    rw [remains_iff hb hb4 hmem, ← mem_subtract, ← hblocks]
    simp only [List.mem_map, exists_exists_and_eq_and]
  have hcover : ∀ p : Prefix, p.isIPv4 = true →
      (∀ x, p.contains (.v4 x) = true → Remains base excludes x) →
      ∃ q ∈ out, q.block.Covers p.block := by
    intro p hp hinside
    obtain ⟨d, hd, hcov⟩ := exists_covers_of_remains hb hb4 hmem hp hinside
    rw [← hblocks] at hd
    obtain ⟨q, hq, rfl⟩ := List.mem_map.mp hd
    exact ⟨q, hq, hcov⟩
  refine ⟨_, hout, ?_, pairwise_apart_sortStrings hal hdisj, ?_, ?_, ?_⟩
  · exact fun x => (mem_texts_iff hal x).trans (hremains x)
  · intro s hs
    obtain ⟨q, hq, rfl⟩ := List.mem_map.mp (mem_sortStrings.mp hs)
    exact ⟨q, parsePrefix_string (hal q hq).isIPv4, aligned_iff.mp (hal q hq)⟩
  · intro p hp _ hinside
    obtain ⟨q, hq, hcov⟩ := hcover p hp hinside
    exact existsUnique_text hal hdisj hp hq hcov
  · intro prefixes hsame
    rw [sortStrings, List.length_insertionSort, List.length_map]
    exact length_le_of_same hdisj hremains hcover hsame

/-- Around the second of four addresses there are two prefixes, and two are needed. -/
theorem isMinimalCover_of_four :
    IsMinimalCover (Remains "10.0.0.3/30".toList ["10.0.0.1/32".toList])
      ["10.0.0.0/32".toList, "10.0.0.2/31".toList] := by
  obtain ⟨nets, hnets, hcover⟩ := @isMinimalCover_subtractCIDRs "10.0.0.3/30".toList
    ["10.0.0.1/32".toList] (by decide) (by decide)
  have heval : subtractCIDRs "10.0.0.3/30".toList ["10.0.0.1/32".toList] =
      .ok ["10.0.0.0/32".toList, "10.0.0.2/31".toList] := by decide +kernel
  obtain rfl := Except.ok.inj (hnets.symm.trans heval)
  exact hcover

/-! ### Canonical results -/

/-- Two lists of excludes take the same addresses out of a base. -/
def SameWithin (base : Str) (excludes excludes' : List Str) : Prop :=
  ∀ x, InCIDR x base → ((∃ c ∈ excludes, InCIDR x c) ↔ ∃ c ∈ excludes', InCIDR x c)

/-- A prefix without host bits is determined by its block. -/
theorem Aligned.eq_of_block {p q : Prefix} (hp : Aligned p) (hq : Aligned q)
    (h : p.block = q.block) : p = q := by
  have hbits : p.bits = q.bits := by rw [← hp.block_bits, ← hq.block_bits, h]
  obtain ⟨a, m, rfl, hm, hdvd⟩ := hp
  obtain ⟨a', m', rfl, hm', hdvd'⟩ := hq
  obtain rfl : m = m' := hbits
  have hindex : a.toNat / 2 ^ (32 - m) = a'.toNat / 2 ^ (32 - m) := by
    rw [← (Prefix.block_v4 hm).2, ← (Prefix.block_v4 hm').2, h]
  have ha : a.toNat = a'.toNat := by
    rw [← Nat.div_mul_cancel hdvd, hindex, Nat.div_mul_cancel hdvd']
  rw [BitVec.toNat_inj.mp ha]

/-- Prefixes without host bits are determined by their blocks. -/
theorem eq_of_map_block {l l' : List Prefix} (hl : ∀ p ∈ l, Aligned p)
    (hl' : ∀ p ∈ l', Aligned p) (h : l.map Prefix.block = l'.map Prefix.block) : l = l' := by
  induction l generalizing l' with
  | nil => exact (List.map_eq_nil_iff.mp h.symm).symm
  | cons p l ih =>
      cases l' with
      | nil => cases h
      | cons q l' =>
          obtain ⟨hpq, htail⟩ := List.cons.inj h
          rw [List.forall_mem_cons] at hl hl'
          rw [hl.1.eq_of_block hl'.1 hpq, ih hl.2 hl'.2 htail]

/-- The subtraction depends only on the addresses that are taken out. -/
theorem subtractCIDRs_congr {base : Str} {excludes excludes' : List Str}
    (hbase : ReadsAsIPv4 base) (hex : ∀ c ∈ excludes, ReadsAsIPv4 c)
    (hex' : ∀ c ∈ excludes', ReadsAsIPv4 c) (hsame : SameWithin base excludes excludes') :
    ∃ nets, subtractCIDRs base excludes = .ok nets ∧ subtractCIDRs base excludes' = .ok nets := by
  obtain ⟨b, hb, hb4⟩ := hbase
  obtain ⟨ex, out, hout, hal, hblocks, hmem⟩ := subtractCIDRs_eq_subtract hb hb4 hex
  obtain ⟨ex', out', hout', hal', hblocks', hmem'⟩ := subtractCIDRs_eq_subtract hb hb4 hex'
  have heq : subtract ex b.block = subtract ex' b.block := by
    refine subtract_congr fun a ha => ?_
    have hval := toNat_ofNat_of_mem ha
    have hx := hsame (BitVec.ofNat 32 a) ((inCIDR_iff hb hb4).mpr (by rwa [hval]))
    rwa [← hmem, ← hmem', hval] at hx
  obtain rfl : out = out' := eq_of_map_block hal hal' (by rw [hblocks, hblocks', heq])
  exact ⟨_, hout, hout'⟩

/-- Preparing a policy fails for the same reason, or accepts the same prefixes. -/
theorem prepare_congr {forbidden forbidden' : List Str} (hne : forbidden ≠ [])
    (hne' : forbidden' ≠ []) {nets : List Str}
    (h : subtractCIDRs "0.0.0.0/0".toList forbidden = .ok nets)
    (h' : subtractCIDRs "0.0.0.0/0".toList forbidden' = .ok nets)
    (localIA : Str) (advertisedNets acceptISDASes : List Str) :
    prepare ⟨localIA, advertisedNets, acceptISDASes, forbidden⟩ =
      prepare ⟨localIA, advertisedNets, acceptISDASes, forbidden'⟩ := by
  by_cases hia : localIA = []
  · simp only [prepare, hia, if_true]
  by_cases hremotes : acceptISDASes = []
  · simp only [prepare, hia, hremotes, if_true, if_false]
  have hprepare : ∀ f, f ≠ [] → subtractCIDRs "0.0.0.0/0".toList f = .ok nets →
      prepare ⟨localIA, advertisedNets, acceptISDASes, f⟩ = .ok nets :=
    fun f hf hsub => prepare_eq_ok_iff.mpr ⟨hia, hremotes, hf, hsub⟩
  rw [hprepare forbidden hne h, hprepare forbidden' hne' h']

/-- **Canonical results.** Two lists of IPv4 excludes that take the same addresses out of an
IPv4 base give the same list of texts. So two inputs that differ in nothing else than such
lists of forbidden CIDRs, neither of them empty, give the same routing policy. -/
theorem canonical_of_sameWithin {excludes excludes' : List Str}
    (hex : ∀ c ∈ excludes, ReadsAsIPv4 c) (hex' : ∀ c ∈ excludes', ReadsAsIPv4 c) :
    (∀ base, ReadsAsIPv4 base → SameWithin base excludes excludes' →
      ∃ nets, subtractCIDRs base excludes = .ok nets ∧
        subtractCIDRs base excludes' = .ok nets) ∧
    (excludes ≠ [] → excludes' ≠ [] → SameWithin "0.0.0.0/0".toList excludes excludes' →
      ∀ localIA advertisedNets acceptISDASes,
        renderRoutingPolicy ⟨localIA, advertisedNets, acceptISDASes, excludes⟩ =
          renderRoutingPolicy ⟨localIA, advertisedNets, acceptISDASes, excludes'⟩) := by
  refine ⟨fun base hbase hsame => subtractCIDRs_congr hbase hex hex' hsame, ?_⟩
  intro hne hne' hsame localIA advertisedNets acceptISDASes
  obtain ⟨nets, hnets, hnets'⟩ := subtractCIDRs_congr ⟨_, parsePrefix_default, rfl⟩ hex hex' hsame
  rw [renderRoutingPolicy, renderRoutingPolicy,
    prepare_congr hne hne' hnets hnets' localIA advertisedNets acceptISDASes]

/-- A prefix holds the addresses of its halves. -/
theorem sameWithin_halves :
    SameWithin "0.0.0.0/0".toList ["10.0.0.0/8".toList]
      ["10.128.0.0/9".toList, "10.0.0.0/9".toList] := by
  intro x _
  have h8 : parsePrefix "10.0.0.0/8".toList = some ⟨.v4 0x0a000000#32, 8⟩ := by decide
  have hl : parsePrefix "10.0.0.0/9".toList = some ⟨.v4 0x0a000000#32, 9⟩ := by decide
  have hr : parsePrefix "10.128.0.0/9".toList = some ⟨.v4 0x0a800000#32, 9⟩ := by decide
  simp only [List.mem_cons, List.not_mem_nil, or_false, exists_eq_left, exists_eq_or_imp]
  rw [inCIDR_iff h8 rfl, inCIDR_iff hl rfl, inCIDR_iff hr rfl, or_comm]
  exact Block.mem_iff_left_or_right (b := Prefix.block ⟨.v4 0x0a000000#32, 8⟩) (by decide)

/-- Forbidding a prefix or its halves gives the same policy. -/
theorem canonical_of_halves :
    (∃ nets, subtractCIDRs "0.0.0.0/0".toList ["10.0.0.0/8".toList] = .ok nets ∧
      subtractCIDRs "0.0.0.0/0".toList ["10.128.0.0/9".toList, "10.0.0.0/9".toList] =
        .ok nets) ∧
    renderRoutingPolicy ⟨"1-ff00:0:110".toList, [], ["2-ff00:0:210".toList],
        ["10.0.0.0/8".toList]⟩ =
      renderRoutingPolicy ⟨"1-ff00:0:110".toList, [], ["2-ff00:0:210".toList],
        ["10.128.0.0/9".toList, "10.0.0.0/9".toList]⟩ := by
  obtain ⟨hnets, hpolicy⟩ := @canonical_of_sameWithin ["10.0.0.0/8".toList]
    ["10.128.0.0/9".toList, "10.0.0.0/9".toList] (by decide) (by decide)
  exact ⟨hnets _ ⟨_, parsePrefix_default, rfl⟩ sameWithin_halves,
    hpolicy (by decide) (by decide) sameWithin_halves _ _ _⟩

/-! ### Preparing the policy -/

/-- **When `prepare` succeeds**, and when the overlap check after a subtraction that succeeded
fails: only if nothing is forbidden. -/
theorem prepare_succeeds_iff (input : Input) :
    ((∃ accepted, prepare input = .ok accepted) ↔
      input.localIA ≠ [] ∧ input.acceptISDASes ≠ [] ∧ input.forbiddenCIDRs ≠ [] ∧
        ∀ c ∈ input.forbiddenCIDRs, ReadsAsIPv4 c) ∧
    ∀ accepted, subtractCIDRs "0.0.0.0/0".toList input.forbiddenCIDRs = .ok accepted →
      ((∃ err, validateNoOverlap accepted input.forbiddenCIDRs = .error err) ↔
        input.forbiddenCIDRs = []) := by
  refine ⟨exists_prepare_iff, fun accepted hacc => ⟨?_, ?_⟩⟩
  · rintro ⟨err, herr⟩
    by_contra hne
    rw [validateNoOverlap_subtractCIDRs hne hacc] at herr
    cases herr
  · intro hnil
    rw [hnil] at hacc ⊢
    cases hvalid : validateNoOverlap accepted [] with
    | error err => exact ⟨err, rfl⟩
    | ok u => exact absurd hvalid (validateNoOverlap_subtractCIDRs_nil hacc)

/-- Without forbidden CIDRs the guard reports the default route. -/
theorem prepare_succeeds_iff_at_nil :
    ∃ err, validateNoOverlap ["0.0.0.0/0".toList] [] = .error err :=
  ((prepare_succeeds_iff ⟨"1-ff00:0:110".toList, [], ["2-ff00:0:210".toList], []⟩).2
    ["0.0.0.0/0".toList] (by decide)).mpr rfl

end ScionOperator
