import Mathlib.Data.List.Pairwise
import Mathlib.Data.List.Perm.Subperm
import Mathlib.Data.Nat.Log
import Mathlib.Tactic.Ring

/-!
# Aligned Blocks of a Binary Address Space

The addresses of width `w` are the numbers below `2 ^ w`. A `Block w` is an aligned
block of them: the addresses that agree on their leading `bits` bits. Two blocks either
nest or are disjoint (`Block.covers_or_disjoint`), a block is the disjoint union of its
two halves, and these two facts make recursive halving compute set differences:
`subtract ex b` lists blocks whose union is `b` minus the blocks of `ex`.

## Main results

* `Block.mem_of_covers`, `Block.covers_or_disjoint`: aligned blocks nest or are
  disjoint.
* `Block.overlaps_iff`: two blocks share an address exactly when one covers the other.
* `Block.mem_iff_left_or_right`: the halves of a block partition it.
* `mem_subtract`: **the subtraction is exact.**
* `exists_covers_of_avoids`, `pairwise_disjoint_subtract`: the blocks of the difference are
  disjoint, and every block inside the difference lies in one of them.
* `length_le_of_covers`: disjoint blocks of which every block of another list lies in one are
  not more than that list has.
* `subtract_congr`: **the subtraction depends only on the addresses taken out.**
* `length_subtract_le`: **the difference is not longer than the bits of what is taken out.**
-/

namespace Dyadic

/-- An aligned block of the address space of width `w`: the addresses whose leading
`bits` bits are the number `index`. -/
structure Block (w : ℕ) where
  /-- The number of leading bits the block fixes. -/
  bits : ℕ
  /-- The value of those bits. -/
  index : ℕ
  bits_le : bits ≤ w
  index_lt : index < 2 ^ bits
deriving DecidableEq

namespace Block

variable {w : ℕ}

/-- An address lies in a block when its leading bits are the block's. -/
instance : Membership ℕ (Block w) :=
  ⟨fun b a => a / 2 ^ (w - b.bits) = b.index⟩

/-- Membership, unfolded. -/
theorem mem_def {a : ℕ} {b : Block w} : a ∈ b ↔ a / 2 ^ (w - b.bits) = b.index :=
  Iff.rfl

instance (a : ℕ) (b : Block w) : Decidable (a ∈ b) :=
  inferInstanceAs (Decidable (a / 2 ^ (w - b.bits) = b.index))

/-- The lowest address of a block. -/
def base (b : Block w) : ℕ :=
  b.index * 2 ^ (w - b.bits)

/-- The lowest address lies in the block. -/
theorem base_mem (b : Block w) : b.base ∈ b := by
  rw [mem_def, base]
  exact Nat.mul_div_cancel _ (Nat.two_pow_pos _)

/-- What lies in a block is an address. -/
theorem lt_of_mem {a : ℕ} {b : Block w} (h : a ∈ b) : a < 2 ^ w := by
  have hpow : 2 ^ w = 2 ^ b.bits * 2 ^ (w - b.bits) := by
    rw [← pow_add, Nat.add_sub_cancel' b.bits_le]
  rw [hpow, ← Nat.div_lt_iff_lt_mul (Nat.two_pow_pos _), mem_def.mp h]
  exact b.index_lt

/-- `b` covers `c`: the leading bits of `c` extend those of `b`. -/
def Covers (b c : Block w) : Prop :=
  b.bits ≤ c.bits ∧ c.index / 2 ^ (c.bits - b.bits) = b.index

instance (b c : Block w) : Decidable (b.Covers c) :=
  inferInstanceAs (Decidable (_ ∧ _))

/-- Dropping the low bits of an address in two stages. -/
theorem div_eq_div_div {b c : Block w} (h : b.bits ≤ c.bits) (a : ℕ) :
    a / 2 ^ (w - b.bits) = a / 2 ^ (w - c.bits) / 2 ^ (c.bits - b.bits) := by
  have hc := c.bits_le
  rw [Nat.div_div_eq_div_mul, ← pow_add]
  congr 2
  omega

/-- A covering block contains every address of the block it covers. -/
theorem mem_of_covers {b c : Block w} (h : b.Covers c) {a : ℕ} (ha : a ∈ c) : a ∈ b := by
  rw [mem_def, div_eq_div_div h.1, mem_def.mp ha, h.2]

/-- The wider of two blocks covers the narrower one as soon as they share an address. -/
theorem covers_of_mem {b c : Block w} (h : b.bits ≤ c.bits) {a : ℕ} (hb : a ∈ b)
    (hc : a ∈ c) : b.Covers c := by
  refine ⟨h, ?_⟩
  rw [← mem_def.mp hc, ← div_eq_div_div h, mem_def.mp hb]

/-- **Aligned blocks nest or are disjoint.** -/
theorem covers_or_disjoint (b c : Block w) :
    b.Covers c ∨ c.Covers b ∨ ∀ a, a ∈ b → a ∉ c := by
  by_cases h : ∃ a, a ∈ b ∧ a ∈ c
  · obtain ⟨a, hb, hc⟩ := h
    rcases Nat.le_total b.bits c.bits with hle | hle
    · exact .inl (covers_of_mem hle hb hc)
    · exact .inr (.inl (covers_of_mem hle hc hb))
  · push Not at h
    exact .inr (.inr h)

/-- Two blocks overlap when they share an address. -/
def Overlaps (b c : Block w) : Prop :=
  ∃ a, a ∈ b ∧ a ∈ c

/-- Overlapping is nesting, one way or the other. -/
theorem overlaps_iff {b c : Block w} : b.Overlaps c ↔ b.Covers c ∨ c.Covers b := by
  constructor
  · rintro ⟨a, hb, hc⟩
    rcases covers_or_disjoint b c with h | h | h
    · exact .inl h
    · exact .inr h
    · exact absurd hc (h a hb)
  · rintro (h | h)
    · exact ⟨c.base, mem_of_covers h c.base_mem, c.base_mem⟩
    · exact ⟨b.base, b.base_mem, mem_of_covers h b.base_mem⟩

instance (b c : Block w) : Decidable (b.Overlaps c) :=
  decidable_of_iff _ overlaps_iff.symm

/-- Two blocks are disjoint when they share no address. -/
def Disjoint (b c : Block w) : Prop :=
  ∀ a, a ∈ b → a ∉ c

instance : Std.Symm (Disjoint : Block w → Block w → Prop) :=
  ⟨fun _ _ h a hc hb => h a hb hc⟩

/-- The lower half of a block that is not a single address. -/
def left (b : Block w) (h : b.bits < w) : Block w where
  bits := b.bits + 1
  index := 2 * b.index
  bits_le := h
  index_lt := by
    have := b.index_lt
    rw [pow_succ]
    omega

/-- The upper half of a block that is not a single address. -/
def right (b : Block w) (h : b.bits < w) : Block w where
  bits := b.bits + 1
  index := 2 * b.index + 1
  bits_le := h
  index_lt := by
    have := b.index_lt
    rw [pow_succ]
    omega

/-- One more leading bit of an address, by its parity. -/
theorem div_succ (a : ℕ) {n : ℕ} (h : n < w) :
    a / 2 ^ (w - n) = a / 2 ^ (w - (n + 1)) / 2 := by
  rw [Nat.div_div_eq_div_mul, ← pow_succ]
  congr 2
  omega

/-- **The halves partition the block**: an address of the block lies in exactly one of
them. -/
theorem mem_iff_left_or_right {a : ℕ} {b : Block w} (h : b.bits < w) :
    a ∈ b ↔ a ∈ b.left h ∨ a ∈ b.right h := by
  simp only [mem_def, left, right]
  rw [div_succ a h]
  omega

/-- No address lies in both halves. -/
theorem not_mem_right_of_mem_left {a : ℕ} {b : Block w} (h : b.bits < w) (ha : a ∈ b.left h) :
    a ∉ b.right h := by
  simp only [mem_def, left, right] at ha ⊢
  omega

/-- A block that is contained in another one is covered by it. -/
theorem covers_of_subset {b c : Block w} (h : ∀ a, a ∈ c → a ∈ b) : b.Covers c := by
  rcases Nat.lt_or_ge c.bits b.bits with hlt | hle
  · -- otherwise both halves of `c` would cover `b`
    have hc : c.bits < w := hlt.trans_le b.bits_le
    have hl : (c.left hc).Covers b :=
      covers_of_mem hlt (c.left hc).base_mem
        (h _ ((mem_iff_left_or_right hc).mpr (.inl (c.left hc).base_mem)))
    have hr : (c.right hc).Covers b :=
      covers_of_mem hlt (c.right hc).base_mem
        (h _ ((mem_iff_left_or_right hc).mpr (.inr (c.right hc).base_mem)))
    exact absurd (mem_of_covers hr b.base_mem)
      (not_mem_right_of_mem_left hc (mem_of_covers hl b.base_mem))
  · exact covers_of_mem hle (h _ c.base_mem) c.base_mem

/-- A block that is covered by a longer one lies in one of its halves. -/
theorem covers_left_or_right {b c : Block w} (h : b.bits < w) (hlt : b.bits < c.bits)
    (hcov : b.Covers c) : (b.left h).Covers c ∨ (b.right h).Covers c := by
  rcases (mem_iff_left_or_right h).mp (mem_of_covers hcov c.base_mem) with hl | hr
  · exact .inl (covers_of_mem hlt hl c.base_mem)
  · exact .inr (covers_of_mem hlt hr c.base_mem)

/-- At full length a block is a single address, so overlapping it is covering it. -/
theorem covers_of_overlaps_of_full {b e : Block w} (hb : ¬ b.bits < w) (h : e.Overlaps b) :
    e.Covers b := by
  obtain ⟨a, he, ha⟩ := h
  exact covers_of_mem (e.bits_le.trans (not_lt.mp hb)) he ha

end Block

/-! ### Subtraction by halving -/

variable {w : ℕ}

/-- The blocks of `b` left when the blocks of `ex` are taken out: a covered block goes,
a block that meets no excluded block stays, any other block is halved. -/
def subtract (ex : List (Block w)) (b : Block w) : List (Block w) :=
  if ∃ e ∈ ex, e.Covers b then []
  else if ∀ e ∈ ex, ¬ e.Overlaps b then [b]
  else if h : b.bits < w then subtract ex (b.left h) ++ subtract ex (b.right h)
  else []
termination_by w - b.bits
decreasing_by
  all_goals simp only [Block.left, Block.right]; omega

/-- **The subtraction is exact.** An address lies in a block of the difference exactly
when it lies in the base block and in no excluded one. -/
theorem mem_subtract (ex : List (Block w)) (b : Block w) (a : ℕ) :
    (∃ c ∈ subtract ex b, a ∈ c) ↔ a ∈ b ∧ ∀ e ∈ ex, a ∉ e := by
  induction b using subtract.induct ex with
  | case1 b hcov =>
      obtain ⟨e, he, hcov⟩ := hcov
      rw [subtract, if_pos ⟨e, he, hcov⟩]
      constructor
      · rintro ⟨c, hc, -⟩
        exact absurd hc List.not_mem_nil
      · rintro ⟨ha, hnot⟩
        exact absurd (Block.mem_of_covers hcov ha) (hnot e he)
  | case2 b hcov hov =>
      rw [subtract, if_neg hcov, if_pos hov]
      simp only [List.mem_singleton, exists_eq_left, iff_self_and]
      intro ha e he hae
      exact hov e he ⟨a, hae, ha⟩
  | case3 b hcov hov h ihl ihr =>
      rw [subtract, if_neg hcov, if_neg hov, dif_pos h, Block.mem_iff_left_or_right h]
      simp only [List.mem_append, or_and_right, exists_or, ihl, ihr]
  | case4 b hcov hov h =>
      push Not at hov
      obtain ⟨e, he, hov⟩ := hov
      exact absurd ⟨e, he, Block.covers_of_overlaps_of_full h hov⟩ hcov

/-! ### The blocks of the difference -/

/-- The blocks of the difference are disjoint. -/
theorem pairwise_disjoint_subtract (ex : List (Block w)) (b : Block w) :
    (subtract ex b).Pairwise Block.Disjoint := by
  induction b using subtract.induct ex with
  | case1 b hcov =>
      rw [subtract, if_pos hcov]
      exact List.Pairwise.nil
  | case2 b hcov hov =>
      rw [subtract, if_neg hcov, if_pos hov]
      exact List.pairwise_singleton _ _
  | case3 b hcov hov h ihl ihr =>
      rw [subtract, if_neg hcov, if_neg hov, dif_pos h]
      refine List.pairwise_append.mpr ⟨ihl, ihr, fun c hc d hd a hac had => ?_⟩
      have hleft := ((mem_subtract ex (b.left h) a).mp ⟨c, hc, hac⟩).1
      have hright := ((mem_subtract ex (b.right h) a).mp ⟨d, hd, had⟩).1
      exact Block.not_mem_right_of_mem_left h hleft hright
  | case4 b hcov hov h =>
      rw [subtract, if_neg hcov, if_neg hov, dif_neg h]
      exact List.Pairwise.nil

/-- **Every block inside the difference lies in one of its blocks**: those are maximal. -/
theorem exists_covers_of_avoids {ex : List (Block w)} {b c : Block w}
    (h : ∀ a, a ∈ c → a ∈ b ∧ ∀ e ∈ ex, a ∉ e) : ∃ d ∈ subtract ex b, d.Covers c := by
  induction b using subtract.induct ex with
  | case1 b hcov =>
      obtain ⟨e, he, hcov⟩ := hcov
      obtain ⟨hb, hnot⟩ := h c.base c.base_mem
      exact absurd (Block.mem_of_covers hcov hb) (hnot e he)
  | case2 b hcov hov =>
      rw [subtract, if_neg hcov, if_pos hov]
      exact ⟨b, List.mem_singleton_self b, Block.covers_of_subset fun a ha => (h a ha).1⟩
  | case3 b hcov hov hb ihl ihr =>
      rw [subtract, if_neg hcov, if_neg hov, dif_pos hb]
      have hbc : b.Covers c := Block.covers_of_subset fun a ha => (h a ha).1
      -- `c` is not all of `b`, of which some address is taken out
      have hlt : b.bits < c.bits := by
        push Not at hov
        obtain ⟨e, he, a, hae, hab⟩ := hov
        by_contra hle
        have hcb : c.Covers b :=
          Block.covers_of_mem (not_lt.mp hle) c.base_mem (h _ c.base_mem).1
        exact (h a (Block.mem_of_covers hcb hab)).2 e he hae
      rcases Block.covers_left_or_right hb hlt hbc with hl | hr
      · obtain ⟨d, hd, hdc⟩ := ihl fun a ha => ⟨Block.mem_of_covers hl ha, (h a ha).2⟩
        exact ⟨d, List.mem_append_left _ hd, hdc⟩
      · obtain ⟨d, hd, hdc⟩ := ihr fun a ha => ⟨Block.mem_of_covers hr ha, (h a ha).2⟩
        exact ⟨d, List.mem_append_right _ hd, hdc⟩
  | case4 b hcov hov hb =>
      push Not at hov
      obtain ⟨e, he, hov⟩ := hov
      exact absurd ⟨e, he, Block.covers_of_overlaps_of_full hb hov⟩ hcov

/-- Disjoint blocks are distinct, since a block is not empty. -/
theorem nodup_of_pairwise_disjoint {l : List (Block w)} (h : l.Pairwise Block.Disjoint) :
    l.Nodup := by
  refine h.imp ?_
  rintro b c hdisj rfl
  exact hdisj b.base b.base_mem b.base_mem

/-- Of disjoint blocks, only one has a given address. -/
theorem eq_of_mem_of_disjoint {l : List (Block w)} (h : l.Pairwise Block.Disjoint) {b c : Block w}
    (hb : b ∈ l) (hc : c ∈ l) {a : ℕ} (hab : a ∈ b) (hac : a ∈ c) : b = c := by
  by_contra hne
  exact h.forall hb hc hne a hab hac

/-- **A cover by disjoint blocks is minimal** if every block of another cover lies in one of
its blocks. -/
theorem length_le_of_covers {l l' : List (Block w)} (hdisj : l.Pairwise Block.Disjoint)
    (hcover : ∀ c ∈ l', ∃ b ∈ l, b.Covers c) (hmeets : ∀ b ∈ l, ∃ c ∈ l', b.Overlaps c) :
    l.length ≤ l'.length := by
  -- each block of `l'` is sent to the one it lies in, and none of `l` is missed
  have hsub : l ⊆ l'.filterMap fun c => l.find? fun b => b.Covers c := by
    intro b hb
    obtain ⟨c, hc, a, hab, hac⟩ := hmeets b hb
    obtain ⟨b', hb', hcov⟩ := hcover c hc
    have hsome : (l.find? fun b => b.Covers c).isSome = true :=
      List.find?_isSome.mpr ⟨b', hb', decide_eq_true hcov⟩
    obtain ⟨d, hd⟩ := Option.isSome_iff_exists.mp hsome
    have hdc : d.Covers c := by simpa using List.find?_some hd
    have hbd : b = d := eq_of_mem_of_disjoint hdisj hb (List.mem_of_find?_eq_some hd) hab
      (Block.mem_of_covers hdc hac)
    exact List.mem_filterMap.mpr ⟨c, hc, hbd ▸ hd⟩
  calc l.length ≤ (l'.filterMap fun c => l.find? fun b => b.Covers c).length :=
        (List.subperm_of_subset (nodup_of_pairwise_disjoint hdisj) hsub).length_le
    _ ≤ l'.length := List.length_filterMap_le _ _

/-! ### What the difference depends on -/

/-- Nothing is left of a block whose addresses are all taken out. -/
theorem subtract_eq_nil {ex : List (Block w)} {b : Block w}
    (h : ∀ a, a ∈ b → ∃ e ∈ ex, a ∈ e) : subtract ex b = [] := by
  rw [List.eq_nil_iff_forall_not_mem]
  intro c hc
  obtain ⟨hb, hnot⟩ := (mem_subtract ex b c.base).mp ⟨c, hc, c.base_mem⟩
  obtain ⟨e, he, hce⟩ := h _ hb
  exact hnot e he hce

/-- A block of which no address is taken out stays. -/
theorem subtract_eq_self {ex : List (Block w)} {b : Block w}
    (h : ∀ a, a ∈ b → ¬ ∃ e ∈ ex, a ∈ e) : subtract ex b = [b] := by
  have hcov : ¬ ∃ e ∈ ex, e.Covers b := by
    rintro ⟨e, he, hcov⟩
    exact h _ b.base_mem ⟨e, he, Block.mem_of_covers hcov b.base_mem⟩
  have hov : ∀ e ∈ ex, ¬ e.Overlaps b := by
    rintro e he ⟨a, hae, hab⟩
    exact h a hab ⟨e, he, hae⟩
  rw [subtract, if_neg hcov, if_pos hov]

/-- A block of which some address is taken out and some is not is halved. -/
theorem subtract_eq_append {ex : List (Block w)} {b : Block w} {a a' : ℕ} (ha : a ∈ b)
    (hout : ∃ e ∈ ex, a ∈ e) (ha' : a' ∈ b) (hin : ¬ ∃ e ∈ ex, a' ∈ e) :
    ∃ h : b.bits < w, subtract ex b = subtract ex (b.left h) ++ subtract ex (b.right h) := by
  obtain ⟨e, he, hae⟩ := hout
  have hcov : ¬ ∃ e ∈ ex, e.Covers b := by
    rintro ⟨e', he', hcov⟩
    exact hin ⟨e', he', Block.mem_of_covers hcov ha'⟩
  have hov : ¬ ∀ e ∈ ex, ¬ e.Overlaps b := fun hno => hno e he ⟨a, hae, ha⟩
  have hbits : b.bits < w := by
    by_contra hfull
    exact hcov ⟨e, he, Block.covers_of_overlaps_of_full hfull ⟨a, hae, ha⟩⟩
  refine ⟨hbits, ?_⟩
  rw [subtract, if_neg hcov, if_neg hov, dif_pos hbits]

/-- **The subtraction depends only on the addresses taken out**, not on the blocks in which
they are given. -/
theorem subtract_congr {ex ex' : List (Block w)} {b : Block w}
    (h : ∀ a, a ∈ b → ((∃ e ∈ ex, a ∈ e) ↔ ∃ e ∈ ex', a ∈ e)) :
    subtract ex b = subtract ex' b := by
  induction b using subtract.induct ex with
  | case1 b hcov =>
      obtain ⟨e, he, hcov⟩ := hcov
      have hall : ∀ a, a ∈ b → ∃ e ∈ ex, a ∈ e := fun a ha => ⟨e, he, Block.mem_of_covers hcov ha⟩
      rw [subtract_eq_nil hall, subtract_eq_nil fun a ha => (h a ha).mp (hall a ha)]
  | case2 b hcov hov =>
      have hnone : ∀ a, a ∈ b → ¬ ∃ e ∈ ex, a ∈ e := by
        rintro a ha ⟨e, he, hae⟩
        exact hov e he ⟨a, hae, ha⟩
      rw [subtract_eq_self hnone, subtract_eq_self fun a ha hex => hnone a ha ((h a ha).mpr hex)]
  | case3 b hcov hov hb ihl ihr =>
      by_cases hall : ∀ a, a ∈ b → ∃ e ∈ ex, a ∈ e
      · rw [subtract_eq_nil hall, subtract_eq_nil fun a ha => (h a ha).mp (hall a ha)]
      -- some address is taken out and some is not, so that both sides halve the block
      rw [not_forall] at hall
      obtain ⟨a', ha'⟩ := hall
      rw [Classical.not_imp] at ha'
      push Not at hov
      obtain ⟨e, he, a, hae, hab⟩ := hov
      have hout : ∃ e ∈ ex, a ∈ e := ⟨e, he, hae⟩
      obtain ⟨_, heq⟩ := subtract_eq_append hab hout ha'.1 ha'.2
      obtain ⟨_, heq'⟩ := subtract_eq_append hab ((h a hab).mp hout) ha'.1
        fun hex => ha'.2 ((h a' ha'.1).mpr hex)
      rw [heq, heq', ihl fun x hx => h x ((Block.mem_iff_left_or_right hb).mpr (.inl hx)),
        ihr fun x hx => h x ((Block.mem_iff_left_or_right hb).mpr (.inr hx))]
  | case4 b hcov hov hb =>
      push Not at hov
      obtain ⟨e, he, hov⟩ := hov
      exact absurd ⟨e, he, Block.covers_of_overlaps_of_full hb hov⟩ hcov

/-! ### The size of the difference -/

namespace Block

/-- A block in a half lies in the whole. -/
theorem covers_of_covers_half {b e : Block w} (h : b.bits < w)
    (he : (b.left h).Covers e ∨ (b.right h).Covers e) : b.Covers e := by
  have hlt : b.bits + 1 ≤ e.bits := he.elim And.left And.left
  have hmem : e.base ∈ b.left h ∨ e.base ∈ b.right h :=
    he.imp (mem_of_covers · e.base_mem) (mem_of_covers · e.base_mem)
  exact covers_of_mem (Nat.le_of_succ_le hlt) ((mem_iff_left_or_right h).mpr hmem) e.base_mem

/-- Where a block stands that does not cover another one: in its lower half, in its upper half,
or not in it. -/
theorem covers_cases {b e : Block w} (h : b.bits < w) (he : ¬ e.Covers b) :
    (b.Covers e ∧ (b.left h).Covers e ∧ ¬ (b.right h).Covers e) ∨
      (b.Covers e ∧ ¬ (b.left h).Covers e ∧ (b.right h).Covers e) ∨
      (¬ b.Covers e ∧ ¬ (b.left h).Covers e ∧ ¬ (b.right h).Covers e) := by
  have hboth : (b.left h).Covers e → ¬ (b.right h).Covers e := fun hl hr =>
    not_mem_right_of_mem_left h (mem_of_covers hl e.base_mem) (mem_of_covers hr e.base_mem)
  by_cases hb : b.Covers e
  · have hlt : b.bits < e.bits := by
      by_contra hle
      exact he (covers_of_mem (not_lt.mp hle) e.base_mem (mem_of_covers hb e.base_mem))
    rcases covers_left_or_right h hlt hb with hl | hr
    · exact .inl ⟨hb, hl, hboth hl⟩
    · exact .inr (.inl ⟨hb, fun hl => hboth hl hr, hr⟩)
  · exact .inr (.inr ⟨hb, fun hl => hb (covers_of_covers_half h (.inl hl)),
      fun hr => hb (covers_of_covers_half h (.inr hr))⟩)

/-- How many blocks of a list lie in a block. -/
def inside (b : Block w) (ex : List (Block w)) : ℕ :=
  ex.countP fun e => b.Covers e

/-- How much longer the blocks of a list that lie in a block are than it, all together. -/
def weight (b : Block w) : List (Block w) → ℕ
  | [] => 0
  | e :: ex => (if b.Covers e then e.bits - b.bits else 0) + weight b ex

/-- The blocks in a block are those in its halves. -/
theorem inside_eq_add {b : Block w} (h : b.bits < w) {ex : List (Block w)}
    (hex : ∀ e ∈ ex, ¬ e.Covers b) :
    b.inside ex = (b.left h).inside ex + (b.right h).inside ex := by
  induction ex with
  | nil => rfl
  | cons e ex ih =>
      rw [List.forall_mem_cons] at hex
      have ih := ih hex.2
      simp only [inside, List.countP_cons, decide_eq_true_eq] at ih ⊢
      rcases covers_cases h hex.1 with ⟨hb, hl, hr⟩ | ⟨hb, hl, hr⟩ | ⟨hb, hl, hr⟩
      all_goals
        simp only [hb, hl, hr, if_true, if_false]
        omega

/-- Each block in a block is one bit longer than in a half. -/
theorem weight_eq_add {b : Block w} (h : b.bits < w) {ex : List (Block w)}
    (hex : ∀ e ∈ ex, ¬ e.Covers b) :
    b.weight ex = (b.left h).weight ex + (b.right h).weight ex + b.inside ex := by
  induction ex with
  | nil => rfl
  | cons e ex ih =>
      rw [List.forall_mem_cons] at hex
      have ih := ih hex.2
      simp only [weight, inside, List.countP_cons, decide_eq_true_eq] at ih ⊢
      have hleft : (b.left h).bits = b.bits + 1 := rfl
      have hright : (b.right h).bits = b.bits + 1 := rfl
      rcases covers_cases h hex.1 with ⟨hb, hl, hr⟩ | ⟨hb, hl, hr⟩ | ⟨hb, hl, hr⟩
      · have hlt := hl.1
        simp only [hb, hl, hr, if_true, if_false]
        omega
      · have hlt := hr.1
        simp only [hb, hl, hr, if_true, if_false]
        omega
      · simp only [hb, hl, hr, if_false]
        omega

end Block

/-- **The size of the difference.** If blocks are taken out of a block, not more blocks are left
than those are longer than it, all together; one is left if there are none. -/
theorem length_subtract_le (ex : List (Block w)) (b : Block w) :
    (subtract ex b).length ≤ b.weight ex + (1 - b.inside ex) := by
  induction b using subtract.induct ex with
  | case1 b hcov =>
      rw [subtract, if_pos hcov]
      exact Nat.zero_le _
  | case2 b hcov hov =>
      have hnone : b.inside ex = 0 := by
        rw [Block.inside, List.countP_eq_zero]
        intro e he hbe
        exact hov e he (Block.overlaps_iff.mpr (.inr (of_decide_eq_true hbe)))
      rw [subtract, if_neg hcov, if_pos hov, hnone]
      exact Nat.le_add_left 1 _
  | case3 b hcov hov h ihl ihr =>
      have hex : ∀ e ∈ ex, ¬ e.Covers b := fun e he hc => hcov ⟨e, he, hc⟩
      -- the block that makes this one be halved lies in it
      have hpos : 0 < b.inside ex := by
        push Not at hov
        obtain ⟨e, he, hov⟩ := hov
        have hbe := (Block.overlaps_iff.mp hov).resolve_left (hex e he)
        exact List.countP_pos_iff.mpr ⟨e, he, decide_eq_true hbe⟩
      have hinside := Block.inside_eq_add h hex
      have hweight := Block.weight_eq_add h hex
      rw [subtract, if_neg hcov, if_neg hov, dif_pos h, List.length_append]
      omega
  | case4 b hcov hov h =>
      rw [subtract, if_neg hcov, if_neg hov, dif_neg h]
      exact Nat.zero_le _

/-- The whole space holds every block. -/
theorem Block.covers_of_bits_eq_zero {b : Block w} (hb : b.bits = 0) (e : Block w) :
    b.Covers e := by
  have hindex : b.index = 0 := by
    have hlt := b.index_lt
    rw [hb, pow_zero] at hlt
    omega
  refine ⟨hb ▸ Nat.zero_le _, ?_⟩
  rw [hb, hindex, Nat.sub_zero, Nat.div_eq_of_lt e.index_lt]

end Dyadic
