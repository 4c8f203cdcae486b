import ScionOperator.NetipText
import ScionOperator.Result

/-!
# The Accepted Prefix Set

The policy engine of the node agent (`internal/agent/policy`). What a node accepts from
remote ASes is the IPv4 space minus the forbidden CIDRs; the routing policy language has
no "except", so `subtractCIDRs` computes a covering prefix set by recursive halving, and
`prepare` checks the result once more (`validateNoOverlap`) before anything is rendered.

The recursion of `walk` carries fuel: 33 levels are enough for every IPv4 prefix
(`walk_eq_subtract`), and the same theorem shows that `upperHalfAddr` never indexes
outside the four bytes of an address, so the fault outcome of the model is unreachable.

## Main results

* `walk_eq_subtract`: the walk computes the difference of aligned blocks.
* `subtractCIDRs_eq_ok`: on IPv4 input the subtraction succeeds, and its output denotes
  exactly the base minus the excludes.
* `prepare_eq_ok_iff`: when `prepare` succeeds, and with what.
* `mem_accepted_iff`: **an address is accepted exactly when no forbidden CIDR contains
  it.**
-/

namespace ScionOperator

open Text Netip Dyadic

/-! ### The model -/

/-- What a node advertises and accepts. -/
structure Input where
  localIA : Str
  advertisedNets : List Str
  acceptISDASes : List Str
  forbiddenCIDRs : List Str
deriving DecidableEq

/-- The errors of `subtractCIDRs`, one for each place that returns one. `fault` stands
for a run-time panic or a recursion that does not end. -/
inductive SubtractError
  | parsingBase (base : Str)
  | baseNotIPv4 (base : Str)
  | parsingExclude (cidr : Str)
  | excludeNotIPv4 (cidr : Str)
  | fault
deriving DecidableEq

/-- The errors of `validateNoOverlap`. -/
inductive OverlapError
  | parsingForbidden (cidr : Str)
  | parsingPrefix (net : Str)
  | defaultRoute (net : Str)
  | overlaps (net : Str) (forbidden : Prefix)
deriving DecidableEq

/-- The errors of `prepare`. -/
inductive PrepareError
  | localIAEmpty
  | noRemotes
  | computingAccepted (err : SubtractError)
  | guardrailViolated (err : OverlapError)
deriving DecidableEq

/-- The base address of the upper half of an IPv4 prefix: its address with the bit of
index `bits` (from the most significant one) set. Indexing outside the four bytes, or
taking the four bytes of an IPv6 address, panics. -/
def upperHalfAddr (p : Prefix) : Option Addr :=
  match p.addr with
  | .v6 _ _ => none
  | .v4 a =>
      if p.bits / 8 < (as4 a).length then
        match (as4 a).modify (p.bits / 8) (· ||| 1#8 <<< (7 - p.bits % 8)) with
        | [b₀, b₁, b₂, b₃] => some (.v4 (addrFrom4 b₀ b₁ b₂ b₃))
        | _ => none
      else none

/-- The recursive halving of `subtractCIDRs`, with the prefixes it appends to its
output. -/
def walk (ex : List Prefix) : ℕ → Prefix → Option (List Prefix)
  | 0, _ => none
  | fuel + 1, p =>
      -- `e` covers all of `p`: fully excluded
      if ex.any fun e => e.bits ≤ p.bits && e.contains p.addr then some []
      else if !ex.any fun e => p.overlaps e then some [p]
      else if 32 ≤ p.bits then some []
      else do
        let left ← walk ex fuel ⟨p.addr, p.bits + 1⟩
        let right ← walk ex fuel ⟨← upperHalfAddr p, p.bits + 1⟩
        pure (left ++ right)

/-- Parse one exclude, host bits cleared. -/
def parseExclude (cidr : Str) : Except SubtractError Prefix :=
  match parsePrefix cidr with
  | none => .error (.parsingExclude cidr)
  | some p => if p.addr.is4 then .ok p.masked else .error (.excludeNotIPv4 cidr)

/-- A covering prefix set equal to the base minus the excludes. -/
def subtractCIDRs (base : Str) (excludes : List Str) : Except SubtractError (List Str) :=
  match parsePrefix base with
  | none => .error (.parsingBase base)
  | some b =>
      if b.addr.is4 then do
        let ex ← excludes.mapM parseExclude
        match walk ex 33 b.masked with
        | none => .error .fault
        | some out => pure (sortStrings (out.map Prefix.string))
      else .error (.baseNotIPv4 base)

/-- Check one accepted prefix against the forbidden ones. -/
def validateNet (fps : List Prefix) (net : Str) : Except OverlapError PUnit :=
  match parsePrefix net with
  | none => .error (.parsingPrefix net)
  | some p =>
      if p.bits = 0 then .error (.defaultRoute net)
      else match fps.find? fun fp => p.overlaps fp with
        | some fp => .error (.overlaps net fp)
        | none => .ok ⟨⟩

/-- Parse one forbidden CIDR. -/
def parseForbidden (cidr : Str) : Except OverlapError Prefix :=
  match parsePrefix cidr with
  | none => .error (.parsingForbidden cidr)
  | some fp => .ok fp

/-- Fails if any net overlaps any forbidden CIDR or is a default route. -/
def validateNoOverlap (nets forbidden : List Str) : Except OverlapError PUnit := do
  let fps ← forbidden.mapM parseForbidden
  forM nets (validateNet fps)

/-- Validate the input and compute the accepted prefix set. An error of a step is kept inside of the
one that is returned (`fmt.Errorf` with `%w`). -/
def prepare (input : Input) : Except PrepareError (List Str) :=
  if input.localIA = [] then .error .localIAEmpty
  else if input.acceptISDASes = [] then .error .noRemotes
  else do
    let accepted ← (subtractCIDRs "0.0.0.0/0".toList input.forbiddenCIDRs).mapError
      .computingAccepted
    (validateNoOverlap accepted input.forbiddenCIDRs).mapError .guardrailViolated
    pure accepted

/-! ### The upper half of a prefix -/

/-- Bit `i` of a single set bit. -/
theorem getLsbD_one_shiftLeft {w : ℕ} (hw : 0 < w) (k i : ℕ) :
    (1#w <<< k).getLsbD i = decide (i < w ∧ i = k) := by
  rw [BitVec.getLsbD_shiftLeft, BitVec.getLsbD_one]
  by_cases h : i < k
  · simp [h, Nat.ne_of_lt h]
  · simp only [h, decide_false, Bool.not_false, Bool.and_true, hw, decide_true, Bool.true_and,
      ← Bool.decide_and, decide_eq_decide]
    omega

/-- Setting one bit of one of the four bytes sets that bit of the address. -/
theorem upperHalfAddr_v4 (a : BitVec 32) {n : ℕ} (hn : n < 32) :
    upperHalfAddr ⟨.v4 a, n⟩ = some (.v4 (a ||| 1#32 <<< (31 - n))) := by
  have hq : n / 8 < 4 := by omega
  have hlen : n / 8 < (as4 a).length := hq
  rw [upperHalfAddr]
  simp only [if_pos hlen]
  -- one case for each byte that the bit may stand in
  obtain h | h | h | h : n / 8 = 0 ∨ n / 8 = 1 ∨ n / 8 = 2 ∨ n / 8 = 3 := by omega
  all_goals
    rw [h]
    simp only [as4, List.modify_cons, OfNat.ofNat_ne_zero, one_ne_zero, ↓reduceIte,
      Nat.reduceSub, Option.some.injEq, Addr.v4.injEq]
    refine BitVec.eq_of_getLsbD_eq fun i hi => ?_
    conv_rhs => rw [← addrFrom4_as4 a]
    simp only [addrFrom4, BitVec.getLsbD_or, BitVec.getLsbD_append,
      getLsbD_one_shiftLeft (show 0 < 8 by omega), getLsbD_one_shiftLeft (show 0 < 32 by omega)]
    split_ifs
    all_goals first
      | (rw [decide_eq_false (by omega), Bool.or_false])
      | (congr 1; rw [decide_eq_decide]; omega)

/-- A valid IPv4 prefix whose host bits are zero. -/
def Aligned (p : Prefix) : Prop :=
  ∃ (a : BitVec 32) (n : ℕ), p = ⟨.v4 a, n⟩ ∧ n ≤ 32 ∧ 2 ^ (32 - n) ∣ a.toNat

/-- Aligned prefixes are valid IPv4 prefixes. -/
theorem Aligned.isIPv4 {p : Prefix} (h : Aligned p) : p.isIPv4 = true := by
  obtain ⟨a, n, rfl, hn, -⟩ := h
  exact Prefix.isIPv4_iff.mpr ⟨a, n, rfl, hn⟩

/-- What lies in a block of width 32 is an IPv4 address. -/
theorem toNat_ofNat_of_mem {a : ℕ} {b : Block 32} (h : a ∈ b) :
    (BitVec.ofNat 32 a).toNat = a := by
  rw [BitVec.toNat_ofNat, Nat.mod_eq_of_lt (Block.lt_of_mem h)]

/-- The length of an aligned prefix is the length of its block. -/
theorem Aligned.block_bits {p : Prefix} (h : Aligned p) : p.block.bits = p.bits := by
  obtain ⟨a, n, rfl, hn, -⟩ := h
  exact (Prefix.block_v4 hn).1

/-- Clearing the host bits aligns a prefix. -/
theorem aligned_masked {p : Prefix} (h : p.isIPv4 = true) : Aligned p.masked := by
  obtain ⟨a, n, rfl, hn⟩ := Prefix.isIPv4_iff.mp h
  refine ⟨a &&& mask 32 n, n, rfl, hn, ?_⟩
  rw [toNat_and_mask]
  exact Dvd.intro_left _ rfl

/-- The next prefix length halves the block size. -/
theorem two_pow_sub_eq {n : ℕ} (hn : n < 32) : 2 ^ (32 - n) = 2 * 2 ^ (32 - (n + 1)) := by
  rw [← pow_succ', show 32 - n = 32 - (n + 1) + 1 by omega]

/-- Lengthening an aligned prefix by one bit gives its lower half. -/
theorem Aligned.left {p : Prefix} (h : Aligned p) (hp : p.block.bits < 32) :
    Aligned ⟨p.addr, p.bits + 1⟩ ∧
      Prefix.block ⟨p.addr, p.bits + 1⟩ = p.block.left hp := by
  obtain ⟨a, n, rfl, hn, hdvd⟩ := h
  rw [(Prefix.block_v4 hn).1] at hp
  rw [two_pow_sub_eq hp] at hdvd
  obtain ⟨k, hk⟩ := hdvd
  refine ⟨⟨a, n + 1, rfl, hp, Dvd.intro (2 * k) (by rw [hk]; ring)⟩, ?_⟩
  simp only [Prefix.block, hn, show n + 1 ≤ 32 from hp, ↓reduceDIte, Block.left, Block.mk.injEq,
    true_and]
  have hpos : 0 < 2 ^ (32 - (n + 1)) := Nat.two_pow_pos _
  rw [two_pow_sub_eq hp, hk, Nat.mul_div_cancel_left _ (by omega),
    show 2 * 2 ^ (32 - (n + 1)) * k = 2 ^ (32 - (n + 1)) * (2 * k) by ring,
    Nat.mul_div_cancel_left _ hpos]

/-- A bit below the block size is clear in an aligned address. -/
theorem and_one_shiftLeft_eq_zero {a : BitVec 32} {n : ℕ} (hn : n < 32)
    (hdvd : 2 ^ (32 - n) ∣ a.toNat) : a &&& 1#32 <<< (31 - n) = 0#32 := by
  refine BitVec.eq_of_getLsbD_eq fun i hi => ?_
  rw [BitVec.getLsbD_and, getLsbD_one_shiftLeft (by omega), BitVec.getLsbD_zero]
  by_cases h : i = 31 - n
  · obtain ⟨k, hk⟩ := hdvd
    have hbit : a.getLsbD i = false := by
      rw [BitVec.getLsbD, hk, Nat.testBit_two_pow_mul]
      simp [h]
      omega
    simp [hbit]
  · simp [h]

/-- Setting the next bit of an aligned prefix gives its upper half. -/
theorem Aligned.right {p : Prefix} (h : Aligned p) (hp : p.block.bits < 32) :
    ∃ up, upperHalfAddr p = some up ∧ Aligned ⟨up, p.bits + 1⟩ ∧
      Prefix.block ⟨up, p.bits + 1⟩ = p.block.right hp := by
  obtain ⟨a, n, rfl, hn, hdvd⟩ := h
  rw [(Prefix.block_v4 hn).1] at hp
  -- the new bit is clear, so setting it adds its value
  have hadd : (a ||| 1#32 <<< (31 - n)).toNat = a.toNat + 2 ^ (32 - (n + 1)) := by
    have hzero := and_one_shiftLeft_eq_zero hp hdvd
    rw [← BitVec.add_eq_or_of_and_eq_zero _ _ hzero, BitVec.toNat_add_of_and_eq_zero hzero,
      BitVec.toNat_shiftLeft, BitVec.toNat_ofNat, Nat.one_mod_two_pow_eq_one.mpr (by omega),
      Nat.shiftLeft_eq, Nat.one_mul, show 31 - n = 32 - (n + 1) by omega,
      Nat.mod_eq_of_lt (Nat.pow_lt_pow_right (by omega) (by omega))]
  rw [two_pow_sub_eq hp] at hdvd
  obtain ⟨k, hk⟩ := hdvd
  have hpos : 0 < 2 ^ (32 - (n + 1)) := Nat.two_pow_pos _
  have hval : (a ||| 1#32 <<< (31 - n)).toNat = 2 ^ (32 - (n + 1)) * (2 * k + 1) := by
    rw [hadd, hk]
    ring
  refine ⟨_, upperHalfAddr_v4 a hp, ⟨_, n + 1, rfl, hp, Dvd.intro _ hval.symm⟩, ?_⟩
  simp only [Prefix.block, hn, show n + 1 ≤ 32 from hp, ↓reduceDIte, Block.right,
    Block.mk.injEq, true_and]
  rw [two_pow_sub_eq hp, hval, hk, Nat.mul_div_cancel_left _ hpos,
    Nat.mul_div_cancel_left _ (by omega)]

/-! ### The walk -/

variable {ex : List Prefix}

/-- The covering test of the walk. -/
theorem any_covers_iff (hex : ∀ e ∈ ex, e.isIPv4 = true) {p : Prefix} (hp : p.isIPv4 = true) :
    (ex.any fun e => e.bits ≤ p.bits && e.contains p.addr) = true ↔
      ∃ e ∈ ex.map Prefix.block, e.Covers p.block := by
  simp only [List.any_eq_true, Bool.and_eq_true, decide_eq_true_eq, List.mem_map,
    exists_exists_and_eq_and]
  constructor
  · rintro ⟨e, he, hc⟩
    exact ⟨e, he, (Prefix.covers_iff (hex e he) hp).mp hc⟩
  · rintro ⟨e, he, hc⟩
    exact ⟨e, he, (Prefix.covers_iff (hex e he) hp).mpr hc⟩

/-- The overlap test of the walk. -/
theorem any_overlaps_iff (hex : ∀ e ∈ ex, e.isIPv4 = true) {p : Prefix} (hp : p.isIPv4 = true) :
    (!ex.any fun e => p.overlaps e) = true ↔
      ∀ e ∈ ex.map Prefix.block, ¬ e.Overlaps p.block := by
  have hsymm : ∀ e ∈ ex, (p.overlaps e = true ↔ e.block.Overlaps p.block) := fun e he => by
    rw [Prefix.overlaps_iff_block hp (hex e he), Block.overlaps_iff, Block.overlaps_iff, or_comm]
  simp only [Bool.not_eq_true', List.any_eq_false, Bool.not_eq_true, List.mem_map,
    forall_exists_index, and_imp, forall_apply_eq_imp_iff₂]
  constructor
  · intro h e he hov
    rw [← hsymm e he, h e he] at hov
    exact absurd hov (by decide)
  · intro h e he
    rw [← Bool.not_eq_true, hsymm e he]
    exact h e he

/-- **The walk computes the difference of blocks.** On an aligned prefix, with one unit
of fuel for each remaining length, it ends without a panic, and its output is the block
difference of the base and the excludes. -/
theorem walk_eq_subtract (hex : ∀ e ∈ ex, e.isIPv4 = true) :
    ∀ (fuel : ℕ) (p : Prefix), Aligned p → 33 ≤ fuel + p.bits →
      ∃ out, walk ex fuel p = some out ∧ (∀ q ∈ out, Aligned q) ∧
        out.map Prefix.block = subtract (ex.map Prefix.block) p.block := by
  intro fuel
  induction fuel with
  | zero =>
      intro p hp hfuel
      obtain ⟨a, n, rfl, hn, -⟩ := hp
      simp only at hfuel
      omega
  | succ fuel ih =>
      intro p hp hfuel
      have h4 := hp.isIPv4
      rw [walk, subtract]
      by_cases hcov : ∃ e ∈ ex.map Prefix.block, e.Covers p.block
      · rw [if_pos ((any_covers_iff hex h4).mpr hcov), if_pos hcov]
        exact ⟨[], rfl, by simp, rfl⟩
      rw [if_neg (fun h => hcov ((any_covers_iff hex h4).mp h)), if_neg hcov]
      by_cases hov : ∀ e ∈ ex.map Prefix.block, ¬ e.Overlaps p.block
      · rw [if_pos ((any_overlaps_iff hex h4).mpr hov), if_pos hov]
        exact ⟨[p], rfl, by simpa using hp, rfl⟩
      rw [if_neg (fun h => hov ((any_overlaps_iff hex h4).mp h)), if_neg hov]
      by_cases hbits : p.block.bits < 32
      · rw [if_neg (by rw [← hp.block_bits]; omega), dif_pos hbits]
        obtain ⟨hl, hlb⟩ := hp.left hbits
        obtain ⟨up, hup, hr, hrb⟩ := hp.right hbits
        obtain ⟨lo, hlo, hloa, hlos⟩ := ih _ hl (by simp only; omega)
        obtain ⟨hi, hhi, hhia, hhis⟩ := ih _ hr (by simp only; omega)
        refine ⟨lo ++ hi, by simp [hlo, hup, hhi], ?_, ?_⟩
        · intro q hq
          rcases List.mem_append.mp hq with hq | hq
          · exact hloa q hq
          · exact hhia q hq
        · rw [List.map_append, hlos, hhis, hlb, hrb]
      · rw [if_pos (by rw [← hp.block_bits]; omega), dif_neg hbits]
        exact ⟨[], rfl, by simp, rfl⟩

/-! ### Subtracting CIDRs -/

/-- An exclude is accepted exactly when it reads as an IPv4 prefix. -/
theorem parseExclude_eq_ok {cidr : Str} {q : Prefix} :
    parseExclude cidr = .ok q ↔
      ∃ p, parsePrefix cidr = some p ∧ p.isIPv4 = true ∧ q = p.masked := by
  rw [parseExclude]
  cases hp : parsePrefix cidr with
  | none => simp
  | some p =>
      have h4 : p.addr.is4 = p.isIPv4 := by
        rw [Prefix.isIPv4, isValid_of_parsePrefix hp, Bool.and_true]
      simp only [h4, Option.some.injEq, exists_eq_left']
      split_ifs with h
      · simp only [Except.ok.injEq, h, true_and]
        exact eq_comm
      · simp [h]

/-- Reading a list of IPv4 excludes: the prefixes read denote the same addresses. -/
theorem mapM_parseExclude {excludes : List Str} (h : ∀ c ∈ excludes, ReadsAsIPv4 c) :
    ∃ ex, excludes.mapM parseExclude = .ok ex ∧ (∀ e ∈ ex, e.isIPv4 = true) ∧
      ∀ x : BitVec 32, (∀ e ∈ ex.map Prefix.block, x.toNat ∉ e) ↔
        ∀ c ∈ excludes, ¬ InCIDR x c := by
  induction excludes with
  | nil => exact ⟨[], rfl, by simp, by simp⟩
  | cons c cs ih =>
      obtain ⟨p, hp, h4⟩ := h c (by simp)
      obtain ⟨ex, hex, hex4, hmem⟩ := ih fun d hd => h d (by simp [hd])
      have hc : parseExclude c = .ok p.masked := parseExclude_eq_ok.mpr ⟨p, hp, h4, rfl⟩
      obtain ⟨hm4, hmb⟩ := Prefix.masked_isIPv4 h4
      refine ⟨p.masked :: ex, ?_, ?_, ?_⟩
      · rw [List.mapM_cons, hc, hex]
        rfl
      · simp only [List.mem_cons, forall_eq_or_imp]
        exact ⟨hm4, hex4⟩
      · intro x
        simp only [List.map_cons, List.mem_cons, forall_eq_or_imp, hmb, ← inCIDR_iff hp h4,
          hmem x]

/-- What a walk that ends returns is listed. -/
theorem subtractCIDRs_of_walk {base : Str} {b : Prefix} (hb : parsePrefix base = some b)
    (hb4 : b.isIPv4 = true) {excludes : List Str} {out : List Prefix}
    (hmap : excludes.mapM parseExclude = .ok ex) (hwalk : walk ex 33 b.masked = some out) :
    subtractCIDRs base excludes = .ok (sortStrings (out.map Prefix.string)) := by
  have h4 : b.addr.is4 = true := by
    rw [Prefix.isIPv4, Bool.and_eq_true] at hb4
    exact hb4.1
  simp only [subtractCIDRs, hb, h4, if_true, hmap]
  simp only [bind, Except.bind, hwalk]
  rfl

/-- The subtraction is that of blocks: on an IPv4 base and IPv4 excludes it succeeds, and
prints the difference of the block of the base and blocks that hold the addresses of the
excludes. -/
theorem subtractCIDRs_eq_subtract {base : Str} {b : Prefix} (hb : parsePrefix base = some b)
    (hb4 : b.isIPv4 = true) {excludes : List Str} (hex : ∀ c ∈ excludes, ReadsAsIPv4 c) :
    ∃ (ex : List (Block 32)) (out : List Prefix),
      subtractCIDRs base excludes = .ok (sortStrings (out.map Prefix.string)) ∧
      (∀ q ∈ out, Aligned q) ∧ out.map Prefix.block = subtract ex b.block ∧
      ∀ x : BitVec 32, (∃ e ∈ ex, x.toNat ∈ e) ↔ ∃ c ∈ excludes, InCIDR x c := by
  obtain ⟨ex, hmap, hex4, hmem⟩ := mapM_parseExclude hex
  obtain ⟨out, hwalk, hal, hblocks⟩ :=
    walk_eq_subtract hex4 33 b.masked (aligned_masked hb4) (by omega)
  rw [(Prefix.masked_isIPv4 hb4).2] at hblocks
  refine ⟨ex.map Prefix.block, out, subtractCIDRs_of_walk hb hb4 hmap hwalk, hal, hblocks,
    fun x => ?_⟩
  have hx := not_congr (hmem x)
  push Not at hx
  exact hx

/-- **Exact subtraction.** On an IPv4 base and IPv4 excludes the subtraction succeeds;
its output lists aligned prefixes that together hold exactly the addresses of the base
in no exclude. -/
theorem subtractCIDRs_eq_ok {base : Str} {b : Prefix} (hb : parsePrefix base = some b)
    (hb4 : b.isIPv4 = true) {excludes : List Str} (hex : ∀ c ∈ excludes, ReadsAsIPv4 c) :
    ∃ out : List Prefix, subtractCIDRs base excludes = .ok (sortStrings (out.map Prefix.string)) ∧
      (∀ q ∈ out, Aligned q) ∧
      ∀ x : BitVec 32, (∃ q ∈ out, x.toNat ∈ q.block) ↔
        x.toNat ∈ b.block ∧ ∀ c ∈ excludes, ¬ InCIDR x c := by
  obtain ⟨ex, out, hout, hal, hblocks, hmem⟩ := subtractCIDRs_eq_subtract hb hb4 hex
  refine ⟨out, hout, hal, fun x => ?_⟩
  have hsub := mem_subtract ex b.block x.toNat
  have hx := not_congr (hmem x)
  push Not at hx
  rw [← hblocks, hx] at hsub
  rw [← hsub]
  simp

/-- A subtraction that succeeds had IPv4 excludes only. -/
theorem readsAsIPv4_of_subtractCIDRs {base : Str} {excludes accepted : List Str}
    (h : subtractCIDRs base excludes = .ok accepted) : ∀ c ∈ excludes, ReadsAsIPv4 c := by
  rw [subtractCIDRs] at h
  split at h
  · cases h
  · split_ifs at h with h4
    obtain ⟨ex, hex, -⟩ := Result.bind_eq_ok.mp h
    intro c hc
    obtain ⟨q, -, hq⟩ := Result.exists_of_mapM_eq_ok hex hc
    obtain ⟨p, hp, hp4, -⟩ := parseExclude_eq_ok.mp hq
    exact ⟨p, hp, hp4⟩

/-! ### The overlap check -/

/-- A net that must not be accepted: a default route, or one that overlaps a forbidden
CIDR. -/
def Unsafe (forbidden : List Str) (net : Str) : Prop :=
  ∃ p, parsePrefix net = some p ∧
    (p.bits = 0 ∨ ∃ c ∈ forbidden, ∃ fp, parsePrefix c = some fp ∧ p.overlaps fp = true)

instance (forbidden : List Str) (net : Str) : Decidable (Unsafe forbidden net) :=
  decidable_of_iff ((parsePrefix net).any (fun p => p.bits = 0 ||
      forbidden.any fun c => (parsePrefix c).any fun fp => p.overlaps fp) = true) (by
    simp only [Option.any_eq_true, Bool.or_eq_true, decide_eq_true_eq, List.any_eq_true]
    rfl)

/-- Checking one net: it is a prefix, not a default route, and overlaps nothing. -/
theorem validateNet_eq_ok {fps : List Prefix} {net : Str} :
    validateNet fps net = .ok ⟨⟩ ↔
      ∃ p, parsePrefix net = some p ∧ p.bits ≠ 0 ∧ ∀ fp ∈ fps, p.overlaps fp = false := by
  rw [validateNet]
  cases parsePrefix net with
  | none => simp
  | some p =>
      simp only [Option.some.injEq, exists_eq_left']
      split_ifs with hbits
      · simp [hbits]
      · cases hfind : fps.find? fun fp => p.overlaps fp with
        | none => simpa [hbits, List.find?_eq_none] using hfind
        | some fp =>
            have hov := List.find?_some hfind
            simp only [reduceCtorEq, false_iff, not_and, not_forall]
            exact fun _ => ⟨fp, List.mem_of_find?_eq_some hfind, by simpa using hov⟩

/-- **The overlap check.** It passes exactly when every forbidden CIDR and every net is a
prefix and no net is unsafe. -/
theorem validateNoOverlap_eq_ok {nets forbidden : List Str} :
    validateNoOverlap nets forbidden = .ok ⟨⟩ ↔
      (∀ c ∈ forbidden, ∃ fp, parsePrefix c = some fp) ∧
        ∀ n ∈ nets, (∃ p, parsePrefix n = some p) ∧ ¬ Unsafe forbidden n := by
  have hfp : ∀ {c fp}, parseForbidden c = .ok fp ↔ parsePrefix c = some fp := by
    intro c fp
    rw [parseForbidden]
    cases parsePrefix c <;> simp
  rw [validateNoOverlap, Result.bind_eq_ok]
  simp only [Result.forM_eq_ok_iff, validateNet_eq_ok]
  constructor
  · rintro ⟨fps, hfps, hnets⟩
    refine ⟨fun c hc => ?_, fun n hn => ?_⟩
    · obtain ⟨fp, -, h⟩ := Result.exists_of_mapM_eq_ok hfps hc
      exact ⟨fp, hfp.mp h⟩
    · obtain ⟨p, hp, hbits, hov⟩ := hnets n hn
      refine ⟨⟨p, hp⟩, ?_⟩
      rintro ⟨q, hq, hunsafe⟩
      obtain rfl : p = q := Option.some.inj (hp.symm.trans hq)
      rcases hunsafe with h0 | ⟨c, hc, fp, hcfp, hpov⟩
      · exact hbits h0
      · obtain ⟨fp', hmem, h⟩ := Result.exists_of_mapM_eq_ok hfps hc
        obtain rfl : fp' = fp := Option.some.inj ((hfp.mp h).symm.trans hcfp)
        rw [hov fp' hmem] at hpov
        exact absurd hpov (by decide)
  · rintro ⟨hforb, hnets⟩
    obtain ⟨fps, hfps⟩ : ∃ fps, forbidden.mapM parseForbidden = .ok fps :=
      Result.mapM_succeeds fun c hc => (hforb c hc).imp fun _ => hfp.mpr
    refine ⟨fps, hfps, fun n hn => ?_⟩
    obtain ⟨⟨p, hp⟩, hsafe⟩ := hnets n hn
    refine ⟨p, hp, fun h0 => hsafe ⟨p, hp, .inl h0⟩, fun fp hmem => ?_⟩
    obtain ⟨c, hc, h⟩ := Result.exists_of_mem_mapM hfps hmem
    rw [← Bool.not_eq_true]
    exact fun hov => hsafe ⟨p, hp, .inr ⟨c, hc, fp, hfp.mp h, hov⟩⟩

/-! ### Preparing the policy -/

/-- The forbidden CIDRs leave no IPv4 address to accept. -/
def CoversIPv4 (forbidden : List Str) : Prop :=
  ∀ x : BitVec 32, ∃ c ∈ forbidden, InCIDR x c

/-- The base of the subtraction is the whole IPv4 space. -/
theorem parsePrefix_default : parsePrefix "0.0.0.0/0".toList = some ⟨.v4 0#32, 0⟩ := by
  decide

/-- Every address lies in a prefix of length zero. -/
theorem mem_block_of_bits_eq_zero {q : Prefix} (hq : q.isIPv4 = true) (h0 : q.bits = 0)
    (x : BitVec 32) : x.toNat ∈ q.block := by
  obtain ⟨a, n, rfl, hn⟩ := Prefix.isIPv4_iff.mp hq
  obtain rfl : n = 0 := h0
  rw [← Prefix.contains_iff_mem_block hq]
  simp [Prefix.contains, Prefix.isValid, Addr.bitLen, BitVec.ushiftRight_eq_zero]

/-- A prefix that shares no address with the forbidden CIDRs may be accepted. -/
theorem not_unsafe_of_disjoint {q : Prefix} (hq : q.isIPv4 = true) {forbidden : List Str}
    (hne : forbidden ≠ []) (hforb : ∀ c ∈ forbidden, ReadsAsIPv4 c)
    (hdisj : ∀ x : BitVec 32, x.toNat ∈ q.block → ∀ c ∈ forbidden, ¬ InCIDR x c) :
    ¬ Unsafe forbidden q.string := by
  rintro ⟨p, hp, hunsafe⟩
  obtain rfl : q = p := Option.some.inj ((parsePrefix_string hq).symm.trans hp)
  rcases hunsafe with h0 | ⟨c, hc, fp, hfp, hov⟩
  · -- a default route contains the addresses of the first forbidden CIDR
    obtain ⟨c, hc⟩ := List.exists_mem_of_ne_nil _ hne
    obtain ⟨x, hx⟩ := (hforb c hc).exists_inCIDR
    exact hdisj x (mem_block_of_bits_eq_zero hq h0 x) c hc hx
  · obtain ⟨fp', hfp', h4⟩ := hforb c hc
    obtain rfl : fp' = fp := Option.some.inj (hfp'.symm.trans hfp)
    obtain ⟨x, hxq, hxf⟩ := (Prefix.overlaps_iff_block hq h4).mp hov
    have hval := toNat_ofNat_of_mem hxq
    refine hdisj (BitVec.ofNat 32 x) (by rwa [hval]) c hc ?_
    rwa [inCIDR_iff hfp h4, hval]

/-- What the subtraction yields on IPv4 forbidden CIDRs passes the overlap check. -/
theorem validateNoOverlap_subtractCIDRs {forbidden accepted : List Str} (hne : forbidden ≠ [])
    (h : subtractCIDRs "0.0.0.0/0".toList forbidden = .ok accepted) :
    validateNoOverlap accepted forbidden = .ok ⟨⟩ := by
  have hforb := readsAsIPv4_of_subtractCIDRs h
  obtain ⟨out, hout, hal, hmem⟩ := subtractCIDRs_eq_ok parsePrefix_default (by decide) hforb
  obtain rfl : sortStrings (out.map Prefix.string) = accepted :=
    Except.ok.inj (hout.symm.trans h)
  refine validateNoOverlap_eq_ok.mpr ⟨fun c hc => (hforb c hc).imp fun _ => And.left, ?_⟩
  intro n hn
  obtain ⟨q, hq, rfl⟩ := List.mem_map.mp (mem_sortStrings.mp hn)
  have hq4 := (hal q hq).isIPv4
  refine ⟨⟨q, parsePrefix_string hq4⟩, not_unsafe_of_disjoint hq4 hne hforb ?_⟩
  exact fun x hx => ((hmem x).mp ⟨q, hq, hx⟩).2

/-- With nothing forbidden the subtraction yields the default route, which the overlap check
rejects. -/
theorem validateNoOverlap_subtractCIDRs_nil {accepted : List Str}
    (h : subtractCIDRs "0.0.0.0/0".toList [] = .ok accepted) :
    validateNoOverlap accepted [] ≠ .ok ⟨⟩ := by
  have hroute : subtractCIDRs "0.0.0.0/0".toList [] = .ok ["0.0.0.0/0".toList] := by decide
  obtain rfl : ["0.0.0.0/0".toList] = accepted := Except.ok.inj (hroute.symm.trans h)
  intro hvalid
  exact ((validateNoOverlap_eq_ok.mp hvalid).2 _ (List.mem_singleton_self _)).2
    ⟨_, parsePrefix_default, .inl rfl⟩

/-- **When `prepare` succeeds.** The local IA, the remotes and the forbidden CIDRs are all
there, and the result is the subtraction's: the overlap check that follows can only fail
when nothing is forbidden. -/
theorem prepare_eq_ok_iff {input : Input} {accepted : List Str} :
    prepare input = .ok accepted ↔
      input.localIA ≠ [] ∧ input.acceptISDASes ≠ [] ∧ input.forbiddenCIDRs ≠ [] ∧
        subtractCIDRs "0.0.0.0/0".toList input.forbiddenCIDRs = .ok accepted := by
  rw [prepare]
  split_ifs with hia hrem
  · simp [hia]
  · simp [hrem]
  simp only [Result.bind_eq_ok, Result.mapError_eq_ok, Result.pure_eq_ok]
  constructor
  · rintro ⟨acc, hacc, ⟨⟩, hval, rfl⟩
    refine ⟨hia, hrem, fun hnil => ?_, hacc⟩
    rw [hnil] at hacc hval
    exact validateNoOverlap_subtractCIDRs_nil hacc hval
  · rintro ⟨-, -, hne, hacc⟩
    exact ⟨accepted, hacc, ⟨⟩, validateNoOverlap_subtractCIDRs hne hacc, rfl⟩

/-- `prepare` succeeds exactly on a local IA, remotes and IPv4 forbidden CIDRs. -/
theorem exists_prepare_iff {input : Input} :
    (∃ accepted, prepare input = .ok accepted) ↔
      input.localIA ≠ [] ∧ input.acceptISDASes ≠ [] ∧ input.forbiddenCIDRs ≠ [] ∧
        ∀ c ∈ input.forbiddenCIDRs, ReadsAsIPv4 c := by
  simp only [prepare_eq_ok_iff]
  constructor
  · rintro ⟨accepted, hia, hrem, hne, h⟩
    exact ⟨hia, hrem, hne, readsAsIPv4_of_subtractCIDRs h⟩
  · rintro ⟨hia, hrem, hne, hforb⟩
    obtain ⟨out, hout, -⟩ := subtractCIDRs_eq_ok parsePrefix_default (by decide) hforb
    exact ⟨_, hia, hrem, hne, hout⟩

section Accepted

variable {input : Input} {accepted : List Str}

/-- The accepted prefixes as values: each is an aligned IPv4 prefix, and together they
hold exactly the addresses in no forbidden CIDR. -/
theorem prepare_out (h : prepare input = .ok accepted) :
    ∃ out : List Prefix, accepted = sortStrings (out.map Prefix.string) ∧
      (∀ q ∈ out, Aligned q) ∧
      ∀ x : BitVec 32, (∃ q ∈ out, x.toNat ∈ q.block) ↔
        ∀ c ∈ input.forbiddenCIDRs, ¬ InCIDR x c := by
  obtain ⟨-, -, -, hsub⟩ := prepare_eq_ok_iff.mp h
  obtain ⟨out, hout, hal, hmem⟩ := subtractCIDRs_eq_ok parsePrefix_default (by decide)
    (readsAsIPv4_of_subtractCIDRs hsub)
  refine ⟨out, Except.ok.inj (hsub.symm.trans hout), hal, fun x => ?_⟩
  rw [hmem x, and_iff_right (mem_block_of_bits_eq_zero (by decide) rfl x)]

/-- Every accepted prefix is written as a valid IPv4 prefix. -/
theorem readsAsIPv4_accepted (h : prepare input = .ok accepted) :
    ∀ s ∈ accepted, ReadsAsIPv4 s := by
  obtain ⟨out, rfl, hal, -⟩ := prepare_out h
  intro s hs
  obtain ⟨q, hq, rfl⟩ := List.mem_map.mp (mem_sortStrings.mp hs)
  exact ⟨q, parsePrefix_string (hal q hq).isIPv4, (hal q hq).isIPv4⟩

/-- **The accepted set.** An address lies in an accepted prefix exactly when no forbidden
CIDR contains it. -/
theorem mem_accepted_iff (h : prepare input = .ok accepted) (x : BitVec 32) :
    (∃ s ∈ accepted, InCIDR x s) ↔ ∀ c ∈ input.forbiddenCIDRs, ¬ InCIDR x c := by
  obtain ⟨out, rfl, hal, hmem⟩ := prepare_out h
  rw [← hmem x]
  simp only [mem_sortStrings, List.mem_map, exists_exists_and_eq_and]
  refine exists_congr fun q => and_congr_right fun hq => ?_
  have hq4 := (hal q hq).isIPv4
  exact inCIDR_iff (parsePrefix_string hq4) hq4

/-- No accepted prefix is unsafe. -/
theorem not_unsafe_accepted (h : prepare input = .ok accepted) :
    ∀ s ∈ accepted, ¬ Unsafe input.forbiddenCIDRs s := by
  obtain ⟨-, -, hne, hsub⟩ := prepare_eq_ok_iff.mp h
  have hvalid := validateNoOverlap_eq_ok.mp (validateNoOverlap_subtractCIDRs hne hsub)
  exact fun s hs => (hvalid.2 s hs).2

/-- The accepted list is empty exactly when the forbidden CIDRs cover everything. -/
theorem accepted_eq_nil_iff (h : prepare input = .ok accepted) :
    accepted = [] ↔ CoversIPv4 input.forbiddenCIDRs := by
  constructor
  · rintro rfl x
    by_contra hx
    push Not at hx
    obtain ⟨s, hs, -⟩ := (mem_accepted_iff h x).mpr hx
    cases hs
  · intro hcov
    rw [List.eq_nil_iff_forall_not_mem]
    intro s hs
    obtain ⟨x, hx⟩ := (readsAsIPv4_accepted h s hs).exists_inCIDR
    obtain ⟨c, hc, hxc⟩ := hcov x
    exact (mem_accepted_iff h x).mp ⟨s, hs, hx⟩ c hc hxc

end Accepted

end ScionOperator
