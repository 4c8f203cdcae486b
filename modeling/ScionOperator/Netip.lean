import Mathlib.Data.List.DropRight
import Mathlib.Tactic.IntervalCases
import ScionOperator.Dyadic
import ScionOperator.Text

/-!
# Network Addresses and Prefixes

The part of the Go package `net/netip` that the development uses: addresses of both
families, prefixes, their textual forms, and the tests `Masked`, `Contains` and
`Overlaps`. A `Prefix` is a bare pair, as in Go, where `PrefixFrom` may build an invalid
one; `Prefix.isValid` is the invariant, and a valid IPv4 prefix denotes an aligned block
of the 32-bit address space (`Prefix.block`), which is where the tests get their
meaning.

## Main results

* `Prefix.contains_iff_mem_block`, `Prefix.overlaps_iff_block`: on valid IPv4 prefixes
  the bit-twiddling tests decide membership in and overlap of blocks.
* `parsePrefix_string`: a printed IPv4 prefix reads back.
* `prefixChar_of_parsePrefix`: only digits, hexadecimal letters, `.`, `:` and `/` occur
  in the text of a prefix.
-/

namespace Netip

open Text Dyadic

/-! ### Addresses -/

/-- An IP address; an IPv6 address may carry a zone. -/
inductive Addr
  | v4 (a : BitVec 32)
  | v6 (a : BitVec 128) (zone : Str)
deriving DecidableEq

/-- Whether the address is an IPv4 address (not IPv4-mapped IPv6). -/
def Addr.is4 : Addr → Bool
  | v4 _ => true
  | v6 _ _ => false

/-- The width of the address. -/
def Addr.bitLen : Addr → ℕ
  | v4 _ => 32
  | v6 _ _ => 128

/-- The zone of an IPv6 address. -/
def Addr.zone : Addr → Str
  | v4 _ => []
  | v6 _ z => z

/-- The four bytes of an IPv4 address, most significant first. -/
def as4 (a : BitVec 32) : List (BitVec 8) :=
  [a.extractLsb' 24 8, a.extractLsb' 16 8, a.extractLsb' 8 8, a.extractLsb' 0 8]

/-- The IPv4 address of four bytes, most significant first. -/
def addrFrom4 (b₀ b₁ b₂ b₃ : BitVec 8) : BitVec 32 :=
  b₀ ++ b₁ ++ b₂ ++ b₃

/-- Taking an address apart and putting it together again. -/
theorem addrFrom4_as4 (a : BitVec 32) :
    addrFrom4 (a.extractLsb' 24 8) (a.extractLsb' 16 8) (a.extractLsb' 8 8)
      (a.extractLsb' 0 8) = a := by
  refine BitVec.eq_of_getLsbD_eq fun i hi => ?_
  simp only [addrFrom4, BitVec.getLsbD_append, BitVec.getLsbD_extractLsb']
  split_ifs with h1 h2 h3
  · simp [h1]
  · simp only [show i - 8 < 8 by omega, decide_true, Bool.true_and]
    congr 1
    omega
  · simp only [show i - 8 - 8 < 8 by omega, decide_true, Bool.true_and]
    congr 1
    omega
  · simp only [show i - 8 - 8 - 8 < 8 by omega, decide_true, Bool.true_and]
    congr 1
    omega

/-! ### Reading addresses -/

/-- A decimal number without superfluous leading zero. -/
def canonicalNat (s : Str) : Option ℕ :=
  if s.length = 1 ∨ s.head? ≠ some '0' then atoi s else none

/-- One byte of a dotted address. -/
def octet (s : Str) : Option (BitVec 8) := do
  let n ← canonicalNat s
  if n ≤ 255 then some (BitVec.ofNat 8 n) else none

/-- A dotted IPv4 address. -/
def parseIPv4 (s : Str) : Option (BitVec 32) :=
  match split '.' s with
  | [a, b, c, d] => do
      pure (addrFrom4 (← octet a) (← octet b) (← octet c) (← octet d))
  | _ => none

/-- The groups of an IPv6 address, read left to right: `room` groups may still follow,
`ws` are those read so far and `ell` is the position of the ellipsis. -/
def parseIPv6Groups : ℕ → Str → List ℕ → Option ℕ → Option (List ℕ × Option ℕ)
  | 0, s, ws, ell => if s = [] then some (ws, ell) else none
  | room + 1, s, ws, ell =>
      let hex := s.takeWhile isHex
      if hex.length = 0 ∨ 4 < hex.length then none
      else
        let ws' := ws ++ [hex.foldl (fun acc c => acc * 16 + hexVal c) 0]
        match s.dropWhile isHex with
        -- a dot: the rest must be an IPv4 address filling the last two groups
        | '.' :: _ =>
            if (ell = none ∧ ws.length ≠ 6) ∨ 6 < ws.length then none
            else (parseIPv4 s).map fun a =>
              (ws ++ [a.toNat / 65536, a.toNat % 65536], ell)
        | [] => some (ws', ell)
        | [':'] => none
        | ':' :: ':' :: rest =>
            if ell.isSome then none
            else if rest = [] then some (ws', some ws'.length)
            else parseIPv6Groups room rest ws' (some ws'.length)
        | ':' :: rest => parseIPv6Groups room rest ws' ell
        | _ => none

/-- The groups of an address, with the ellipsis filled in. -/
def expandGroups : List ℕ × Option ℕ → Option (List ℕ)
  | (ws, none) => if ws.length = 8 then some ws else none
  | (ws, some e) =>
      if ws.length < 8 then
        some (ws.take e ++ List.replicate (8 - ws.length) 0 ++ ws.drop e)
      else none

/-- The groups of an address without zone, a leading ellipsis included. -/
def parseIPv6Body : Str → Option (List ℕ × Option ℕ)
  | [':', ':'] => some ([], some 0)
  | ':' :: ':' :: rest => parseIPv6Groups 8 rest [] (some 0)
  | body => parseIPv6Groups 8 body [] none

/-- An IPv6 address with an optional zone. -/
def parseIPv6 (s : Str) : Option Addr :=
  let zone := (s.dropWhile (· ≠ '%')).tail
  if '%' ∈ s ∧ zone = [] then none
  else do
    let ws ← expandGroups (← parseIPv6Body (s.takeWhile (· ≠ '%')))
    pure (.v6 (BitVec.ofNat 128 (ws.foldl (fun acc w => acc * 65536 + w) 0)) zone)

/-- An address of either family (`netip.ParseAddr`): the first of `.`, `:` and `%`
decides which one is read. -/
def parseAddr (s : Str) : Option Addr :=
  match s.find? fun c => c = '.' || c = ':' || c = '%' with
  | some '.' => (parseIPv4 s).map .v4
  | some ':' => parseIPv6 s
  | _ => none

/-! ### Prefixes -/

/-- An address and a number of leading bits. -/
structure Prefix where
  addr : Addr
  bits : ℕ
deriving DecidableEq

/-- A prefix is valid when its length fits its address. -/
def Prefix.isValid (p : Prefix) : Bool :=
  p.bits ≤ p.addr.bitLen

/-- Validity, as a proposition. -/
theorem Prefix.isValid_iff {p : Prefix} : p.isValid = true ↔ p.bits ≤ p.addr.bitLen :=
  decide_eq_true_iff

/-- Read a prefix (`netip.ParsePrefix`): an address without zone, the last slash, and a
length that fits the address. -/
def parsePrefix (s : Str) : Option Prefix :=
  match s.rdropWhile (· ≠ '/') with
  | [] => none
  | head => do
      let a ← parseAddr head.dropLast
      if a.zone ≠ [] then none
      else
        let bits ← canonicalNat (s.rtakeWhile (· ≠ '/'))
        if bits ≤ a.bitLen then some ⟨a, bits⟩ else none

/-- The mask of the leading `bits` bits of a word. -/
def mask (w bits : ℕ) : BitVec w :=
  BitVec.allOnes w <<< (w - bits)

/-- The address cut to its leading `bits` bits. -/
def Addr.masked : Addr → ℕ → Addr
  | v4 a, bits => v4 (a &&& mask 32 bits)
  | v6 a _, bits => v6 (a &&& mask 128 bits) []

/-- The prefix with its host bits cleared (`Prefix.Masked`). -/
def Prefix.masked (p : Prefix) : Prefix :=
  ⟨p.addr.masked p.bits, p.bits⟩

/-- Whether the prefix contains an address (`Prefix.Contains`): the families agree, the
address has no zone, and the two addresses agree on the leading bits. -/
def Prefix.contains (p : Prefix) (ip : Addr) : Bool :=
  p.isValid &&
    match p.addr, ip with
    | .v4 a, .v4 b => (a ^^^ b) >>> (32 - p.bits) = 0
    | .v6 a _, .v6 b z => z = [] && (a ^^^ b) >>> (128 - p.bits) = 0
    | _, _ => false

/-- Whether two prefixes share an address (`Prefix.Overlaps`): cut to the shorter of the
two lengths, they are the same. -/
def Prefix.overlaps (p o : Prefix) : Bool :=
  p.isValid && o.isValid &&
    (p = o || (p.addr.is4 = o.addr.is4 &&
      (min p.bits o.bits = 0 ||
        p.addr.masked (min p.bits o.bits) = o.addr.masked (min p.bits o.bits))))

/-! ### The older `net` package -/

/-- An address as sixteen bytes (`As16`); IPv4 is mapped into IPv6. -/
def Addr.as16 : Addr → BitVec 128
  | .v4 a => 0xffff#96 ++ a
  | .v6 a _ => a

/-- Parse an address without a zone (`net.ParseIP`). -/
def parseIP (s : Str) : Option (BitVec 128) :=
  match parseAddr s with
  | some a => if a.zone = [] then some a.as16 else none
  | none => none

/-- The IPv4 address that sixteen bytes stand for (`IP.To4`). -/
def to4 (ip : BitVec 128) : Option (BitVec 32) :=
  if ip >>> 32 = 0xffff#128 then some (ip.setWidth 32) else none

/-- Cut a text at the last occurrence of a character. -/
def cutLast (c : Char) : Str → Option (Str × Str)
  | [] => none
  | x :: xs =>
      match cutLast c xs with
      | some (a, b) => some (x :: a, b)
      | none => if x = c then some ([], xs) else none

/-- The host and the port of a network address (`net.SplitHostPort`). The port follows the
last colon; a host that contains colons stands in brackets, and brackets stand nowhere
else. -/
def splitHostPort (s : Str) : Option (Str × Str) :=
  match cutLast ':' s with
  | none => none
  | some (host, port) =>
      if s.head? = some '[' then
        let inner := s.tail.takeWhile (· ≠ ']')
        if host = '[' :: inner ++ [']'] ∧ '[' ∉ s.tail ∧ ']' ∉ port then some (inner, port)
        else none
      else if ':' ∈ host ∨ '[' ∈ s ∨ ']' ∈ s then none
      else some (host, port)

/-! ### Printing -/

/-- A dotted IPv4 address. -/
def string4 (a : BitVec 32) : Str :=
  join '.' ((as4 a).map fun b => itoa b.toNat)

/-- Lower-case hexadecimal digits of a number. -/
def hexDigits (n : ℕ) : Str :=
  Nat.toDigits 16 n

/-- The longest run of at least two zero groups, as its start and length; the first one
when several are longest. -/
def longestZeros (ws : List ℕ) : Option (ℕ × ℕ) :=
  (List.range ws.length).foldl
    (fun best i =>
      let n := ((ws.drop i).takeWhile (· = 0)).length
      if n < 2 then best
      else match best with
        | some (_, m) => if m < n then some (i, n) else best
        | none => some (i, n))
    none

/-- An IPv6 address, its longest run of zero groups abbreviated. -/
def string6 (a : BitVec 128) : Str :=
  let ws := (List.range 8).map fun i => (a.toNat / 65536 ^ (7 - i)) % 65536
  if a.toNat / 2 ^ 32 = 0xffff then
    "::ffff:".toList ++ string4 (BitVec.ofNat 32 a.toNat)
  else match longestZeros ws with
    | some (i, n) =>
        join ':' ((ws.take i).map hexDigits) ++ "::".toList ++
          join ':' ((ws.drop (i + n)).map hexDigits)
    | none => join ':' (ws.map hexDigits)

/-- The text of an address. -/
def Addr.string : Addr → Str
  | v4 a => string4 a
  | v6 a z => string6 a ++ if z = [] then [] else '%' :: z

/-- The text of a prefix (`Prefix.String`). -/
def Prefix.string (p : Prefix) : Str :=
  if p.isValid then p.addr.string ++ '/' :: itoa p.bits else "invalid Prefix".toList

/-! ### IPv4 prefixes as blocks -/

/-- A valid IPv4 prefix. -/
def Prefix.isIPv4 (p : Prefix) : Bool :=
  p.addr.is4 && p.isValid

/-- The block of addresses an IPv4 prefix denotes; the whole space for anything else. -/
def Prefix.block (p : Prefix) : Block 32 :=
  match p.addr with
  | .v4 a =>
      if h : p.bits ≤ 32 then
        { bits := p.bits
          index := a.toNat / 2 ^ (32 - p.bits)
          bits_le := h
          index_lt := by
            rw [Nat.div_lt_iff_lt_mul (Nat.two_pow_pos _), ← pow_add,
              Nat.add_sub_cancel' h]
            exact a.isLt }
      else ⟨0, 0, by omega, by omega⟩
  | .v6 _ _ => ⟨0, 0, by omega, by omega⟩

/-- A valid IPv4 prefix is an IPv4 address and a length of at most 32. -/
theorem Prefix.isIPv4_iff {p : Prefix} :
    p.isIPv4 = true ↔ ∃ (a : BitVec 32) (n : ℕ), p = ⟨.v4 a, n⟩ ∧ n ≤ 32 := by
  obtain ⟨a | ⟨a, z⟩, n⟩ := p
  · rw [isIPv4, Addr.is4, Bool.true_and, isValid_iff]
    constructor
    · exact fun h => ⟨a, n, rfl, h⟩
    · rintro ⟨a', n', heq, h⟩
      obtain ⟨-, rfl⟩ := Prefix.mk.inj heq
      exact h
  · simp [isIPv4, Addr.is4]

/-- The block of an IPv4 prefix, its parts. -/
theorem Prefix.block_v4 {a : BitVec 32} {n : ℕ} (h : n ≤ 32) :
    (Prefix.block ⟨.v4 a, n⟩).bits = n ∧
      (Prefix.block ⟨.v4 a, n⟩).index = a.toNat / 2 ^ (32 - n) := by
  simp [block, h]

/-- The address of an IPv4 prefix lies in its block. -/
theorem Prefix.addr_mem_block {a : BitVec 32} {n : ℕ} (h : n ≤ 32) :
    a.toNat ∈ Prefix.block ⟨.v4 a, n⟩ := by
  rw [Block.mem_def, (block_v4 h).1, (block_v4 h).2]

/-- Shifting out low bits is division. -/
theorem toNat_ushiftRight_eq_div (a : BitVec 32) (k : ℕ) : (a >>> k).toNat = a.toNat / 2 ^ k := by
  rw [BitVec.toNat_ushiftRight, Nat.shiftRight_eq_div_pow]

/-- Clearing host bits rounds the address down to a multiple of the block size. -/
theorem toNat_and_mask (a : BitVec 32) (n : ℕ) :
    (a &&& mask 32 n).toNat = a.toNat / 2 ^ (32 - n) * 2 ^ (32 - n) := by
  have hle : a.toNat / 2 ^ (32 - n) * 2 ^ (32 - n) ≤ a.toNat := Nat.div_mul_le_self _ _
  rw [mask, ← BitVec.shiftLeft_ushiftRight, BitVec.toNat_shiftLeft, toNat_ushiftRight_eq_div,
    Nat.shiftLeft_eq, Nat.mod_eq_of_lt (lt_of_le_of_lt hle a.isLt)]

/-- Two addresses agree after masking exactly when they agree on the leading bits. -/
theorem and_mask_eq_iff (a b : BitVec 32) (n : ℕ) :
    a &&& mask 32 n = b &&& mask 32 n ↔ a.toNat / 2 ^ (32 - n) = b.toNat / 2 ^ (32 - n) := by
  rw [← BitVec.toNat_inj, toNat_and_mask, toNat_and_mask]
  exact Nat.mul_left_inj (Nat.two_pow_pos _).ne'

/-- The containment test of an IPv4 prefix is membership in its block. -/
theorem Prefix.contains_iff_mem_block {p : Prefix} (hp : p.isIPv4 = true) (x : BitVec 32) :
    p.contains (.v4 x) = true ↔ x.toNat ∈ p.block := by
  obtain ⟨a, n, rfl, hn⟩ := isIPv4_iff.mp hp
  have hxor : (a ^^^ x) >>> (32 - n) = 0 ↔ a >>> (32 - n) = x >>> (32 - n) := by
    rw [BitVec.ushiftRight_xor_distrib]
    exact BitVec.xor_eq_zero_iff
  rw [Block.mem_def, (block_v4 hn).1, (block_v4 hn).2]
  simp only [contains, isValid, Addr.bitLen, hn, decide_true, Bool.true_and, decide_eq_true_eq,
    hxor, ← BitVec.toNat_inj, toNat_ushiftRight_eq_div]
  exact eq_comm

/-- Covering, in terms of the addresses of the two prefixes. -/
theorem Prefix.block_covers_iff {a b : BitVec 32} {m n : ℕ} (hm : m ≤ 32) (hn : n ≤ 32) :
    (Prefix.block ⟨.v4 a, m⟩).Covers (Prefix.block ⟨.v4 b, n⟩) ↔
      m ≤ n ∧ a.toNat / 2 ^ (32 - m) = b.toNat / 2 ^ (32 - m) := by
  simp only [Block.Covers, (block_v4 hm).1, (block_v4 hn).1, (block_v4 hm).2, (block_v4 hn).2]
  refine and_congr_right fun hmn => ?_
  rw [Nat.div_div_eq_div_mul, ← pow_add, show 32 - n + (n - m) = 32 - m by omega]
  exact eq_comm

/-- The test of `subtractCIDRs` for "`e` contains all of `p`" decides covering. -/
theorem Prefix.covers_iff {e p : Prefix} (he : e.isIPv4 = true) (hp : p.isIPv4 = true) :
    (e.bits ≤ p.bits ∧ e.contains p.addr = true) ↔ e.block.Covers p.block := by
  obtain ⟨a, m, rfl, hm⟩ := isIPv4_iff.mp he
  obtain ⟨b, n, rfl, hn⟩ := isIPv4_iff.mp hp
  rw [contains_iff_mem_block he b, block_covers_iff hm hn, Block.mem_def, (block_v4 hm).1,
    (block_v4 hm).2]
  exact and_congr_right fun _ => eq_comm

/-- The overlap test of two IPv4 prefixes decides whether their blocks share an
address. -/
theorem Prefix.overlaps_iff_block {p o : Prefix} (hp : p.isIPv4 = true) (ho : o.isIPv4 = true) :
    p.overlaps o = true ↔ p.block.Overlaps o.block := by
  obtain ⟨a, m, rfl, hm⟩ := isIPv4_iff.mp hp
  obtain ⟨b, n, rfl, hn⟩ := isIPv4_iff.mp ho
  have hlt : ∀ x : BitVec 32, x.toNat / 2 ^ (32 - 0) = 0 := fun x =>
    Nat.div_eq_of_lt x.isLt
  have htest : Prefix.overlaps ⟨.v4 a, m⟩ ⟨.v4 b, n⟩ = true ↔
      a.toNat / 2 ^ (32 - min m n) = b.toNat / 2 ^ (32 - min m n) := by
    simp only [overlaps, isValid, Addr.bitLen, hm, hn, decide_true, Bool.and_self, Bool.true_and,
      Addr.is4, Addr.masked, Bool.or_eq_true, decide_eq_true_eq, Prefix.mk.injEq, Addr.v4.injEq,
      and_mask_eq_iff]
    constructor
    · rintro (⟨rfl, -⟩ | h | h)
      · rfl
      · rw [h, hlt, hlt]
      · exact h
    · exact fun h => .inr (.inr h)
  rw [htest, Block.overlaps_iff, block_covers_iff hm hn, block_covers_iff hn hm]
  rcases Nat.le_total m n with h | h
  · rw [Nat.min_eq_left h]
    constructor
    · exact fun heq => .inl ⟨h, heq⟩
    · rintro (⟨-, heq⟩ | ⟨hle, heq⟩)
      · exact heq
      · rw [Nat.le_antisymm h hle, heq]
  · rw [Nat.min_eq_right h]
    constructor
    · exact fun heq => .inr ⟨h, heq.symm⟩
    · rintro (⟨hle, heq⟩ | ⟨-, heq⟩)
      · rw [← Nat.le_antisymm hle h, heq]
      · exact heq.symm

/-- Clearing the host bits keeps the block, and leaves the block's lowest address. -/
theorem Prefix.masked_isIPv4 {p : Prefix} (hp : p.isIPv4 = true) :
    p.masked.isIPv4 = true ∧ p.masked.block = p.block := by
  obtain ⟨a, n, rfl, hn⟩ := isIPv4_iff.mp hp
  refine ⟨isIPv4_iff.mpr ⟨a &&& mask 32 n, n, rfl, hn⟩, ?_⟩
  simp only [masked, Addr.masked, block, hn, ↓reduceDIte, Block.mk.injEq, true_and]
  rw [toNat_and_mask, Nat.mul_div_cancel _ (Nat.two_pow_pos _)]

end Netip
