import ScionOperator.Text
import Mathlib

/-!
# Durations

`time.ParseDuration`: a possibly signed sequence of decimal numbers, each with an optional
fraction and a unit, such as `1h30m` or `-1.5s`. Numbers, products and sums that leave the range
of 64-bit nanoseconds are rejected. Where the Go code multiplies a fraction in floating point,
the exact product is rounded down here.

A text without sign and fractions is a list of items, numbers with a unit. On such a text the
parser returns the sum, if it is in range.

## Main results

* `parseDuration_text`: **what a list of items reads as.**
-/

namespace Duration

open Text

/-! ### The parser -/

/-- The errors of `ParseDuration`. -/
inductive ParseError
  | invalidDuration
  | missingUnit
  | unknownUnit (unit : Str)
  deriving DecidableEq

/-- The units, with their length in nanoseconds. -/
def unitMap : List (Str × ℕ) :=
  [("ns".toList, 1), ("us".toList, 1000), ("µs".toList, 1000), ("μs".toList, 1000),
    ("ms".toList, 1000000), ("s".toList, 1000000000), ("m".toList, 60000000000),
    ("h".toList, 3600000000000)]

/-- The length of a unit. -/
def unit (name : Str) : Option ℕ :=
  (unitMap.find? fun u => u.1 = name).map Prod.snd

/-- The number at the start of a text, unless it exceeds `2 ^ 63`. -/
def leadingInt (s : Str) : Option (ℕ × Str) :=
  let v := Nat.ofDigitChars 10 (s.takeWhile Char.isDigit) 0
  if v > 2 ^ 63 then none else some (v, s.dropWhile Char.isDigit)

/-- The digits of a fraction as a number and the power of ten to divide it by; digits that no
longer fit are dropped. -/
def leadingFraction : ℕ → ℕ → Bool → Str → ℕ × ℕ × Str
  | x, scale, _, [] => (x, scale, [])
  | x, scale, overflow, c :: s =>
      if !c.isDigit then (x, scale, c :: s)
      else if overflow || x > (2 ^ 63 - 1) / 10 then leadingFraction x scale true s
      else
        let y := x * 10 + (c.toNat - '0'.toNat)
        if y > 2 ^ 63 then leadingFraction x scale true s
        else leadingFraction y (scale * 10) false s

/-- A character of a number; units have none. -/
def numberChar (c : Char) : Bool :=
  c = '.' || c.isDigit

/-- The fraction after a number: its digits, the power of ten, whether there were any, and
the rest. -/
def fraction : Str → ℕ × ℕ × Bool × Str
  | '.' :: s =>
      let (f, scale, rest) := leadingFraction 0 1 false s
      (f, scale, rest.length ≠ s.length, rest)
  | s => (0, 1, false, s)

/-- One number with its unit, in nanoseconds. -/
def parseItem (s : Str) : Except ParseError (ℕ × Str) :=
  if !(s.head?.any numberChar) then .error .invalidDuration
  else
    match leadingInt s with
    | none => .error .invalidDuration
    | some (v, s₁) =>
        let (f, scale, post, s₂) := fraction s₁
        let pre := s₁.length ≠ s.length
        if !pre && !post then .error .invalidDuration
        else
          let u := s₂.takeWhile fun c => !numberChar c
          if u = [] then .error .missingUnit
          else
            match unit u with
            | none => .error (.unknownUnit u)
            | some ns =>
                if v > 2 ^ 63 / ns then .error .invalidDuration
                else if f > 0 ∧ v * ns + f * ns / scale > 2 ^ 63 then .error .invalidDuration
                else .ok (v * ns + f * ns / scale, s₂.dropWhile fun c => !numberChar c)

/-- The sum of the numbers in a text, added to `d`. An item takes at least one character, so
there are at most as many items as characters. -/
def parseItems : ℕ → ℕ → Str → Except ParseError ℕ
  | _, d, [] => .ok d
  | 0, _, _ :: _ => .error .invalidDuration
  | room + 1, d, s => do
      let (v, rest) ← parseItem s
      if d + v > 2 ^ 63 then .error .invalidDuration else parseItems room (d + v) rest

/-- The sign of a text and what follows it. -/
def sign : Str → Bool × Str
  | '-' :: s => (true, s)
  | '+' :: s => (false, s)
  | s => (false, s)

/-- A duration in nanoseconds (`time.ParseDuration`). -/
def parseDuration (text : Str) : Except ParseError ℤ :=
  let (neg, s) := sign text
  if s = ['0'] then .ok 0
  else if s = [] then .error .invalidDuration
  else do
    let d ← parseItems s.length 0 s
    if neg then .ok (-d) else if d > 2 ^ 63 - 1 then .error .invalidDuration else .ok d

/-! ### Lists of items -/

/-- A number with a unit. -/
structure Item where
  digits : Str
  unit : Str
  ns : ℕ
  digits_ne_nil : digits ≠ []
  isDigit_of_mem : ∀ c ∈ digits, c.isDigit = true
  mem_unitMap : (unit, ns) ∈ unitMap

/-- An item as text. -/
def Item.text (i : Item) : Str :=
  i.digits ++ i.unit

/-- The length of an item in nanoseconds. -/
def Item.value (i : Item) : ℕ :=
  Nat.ofDigitChars 10 i.digits 0 * i.ns

/-- A list of items as text. -/
def text (items : List Item) : Str :=
  items.flatMap Item.text

/-- The sum of a list of items. -/
def total (items : List Item) : ℕ :=
  (items.map Item.value).sum

/-- A unit is not empty, has no character of a number, and lasts some time. -/
theorem unit_of_mem {name : Str} {ns : ℕ} (h : (name, ns) ∈ unitMap) :
    name ≠ [] ∧ (∀ c ∈ name, numberChar c = false) ∧ 0 < ns ∧ unit name = some ns := by
  have hall : (unitMap.all fun u => u.1 ≠ [] && u.1.all (fun c => !numberChar c) &&
      0 < u.2 && unit u.1 = some u.2) = true := by decide +kernel
  have hu := List.all_eq_true.mp hall _ h
  simp only [Bool.and_eq_true, decide_eq_true_eq, List.all_eq_true, Bool.not_eq_true'] at hu
  exact ⟨hu.1.1.1, hu.1.1.2, hu.1.2, hu.2⟩

/-- A text that is empty or goes on with a number. -/
def StartsItem (s : Str) : Prop :=
  ∀ c ∈ s.head?, c.isDigit = true

/-- A list of items goes on with a number. -/
theorem startsItem_text (items : List Item) : StartsItem (text items) := by
  cases items with
  | nil => simp [StartsItem, text]
  | cons i items =>
      obtain ⟨d, ds, hds⟩ := List.exists_cons_of_ne_nil i.digits_ne_nil
      intro c hc
      obtain rfl : d = c := by
        simpa [text, Item.text, hds] using hc
      exact i.isDigit_of_mem d (by rw [hds]; exact List.mem_cons_self)

section Item

variable (i : Item) (rest : Str)

/-- The first character of a unit is neither a digit nor a dot. -/
theorem Item.exists_unit_cons :
    ∃ u us, i.unit = u :: us ∧ u.isDigit = false ∧ u ≠ '.' := by
  obtain ⟨hne, hchars, -, -⟩ := unit_of_mem i.mem_unitMap
  obtain ⟨u, us, hus⟩ := List.exists_cons_of_ne_nil hne
  have hu : numberChar u = false := hchars u (by rw [hus]; exact List.mem_cons_self)
  rw [numberChar, Bool.or_eq_false_iff, decide_eq_false_iff_not] at hu
  exact ⟨u, us, hus, hu.2, hu.1⟩

/-- The number of an item. -/
theorem leadingInt_item : leadingInt (i.text ++ rest) =
    if Nat.ofDigitChars 10 i.digits 0 > 2 ^ 63 then none
    else some (Nat.ofDigitChars 10 i.digits 0, i.unit ++ rest) := by
  obtain ⟨u, us, hus, hdigit, -⟩ := i.exists_unit_cons
  obtain ⟨htake, hdrop⟩ := takeWhile_append_of_stop (r := i.unit ++ rest) i.isDigit_of_mem
    fun c hc => by
      obtain rfl : u = c := by simpa [hus] using hc
      exact hdigit
  rw [leadingInt, Item.text, List.append_assoc, htake, hdrop]

/-- An item has no fraction. -/
theorem fraction_item : fraction (i.unit ++ rest) = (0, 1, false, i.unit ++ rest) := by
  obtain ⟨u, us, hus, -, hdot⟩ := i.exists_unit_cons
  rw [hus, List.cons_append]
  unfold fraction
  split
  · next heq => exact absurd (List.cons.inj heq).1 hdot
  · rfl

variable {rest}

/-- The unit of an item ends where the next item starts. -/
theorem takeWhile_unit (hrest : StartsItem rest) :
    (i.unit ++ rest).takeWhile (fun c => !numberChar c) = i.unit ∧
      (i.unit ++ rest).dropWhile (fun c => !numberChar c) = rest := by
  obtain ⟨-, hchars, -, -⟩ := unit_of_mem i.mem_unitMap
  refine takeWhile_append_of_stop (fun c hc => by rw [hchars c hc]; rfl) fun c hc => ?_
  rw [numberChar, hrest c hc, Bool.or_true]
  rfl

/-- One item reads as its length, if it is in range. -/
theorem parseItem_append (hrest : StartsItem rest) :
    parseItem (i.text ++ rest) =
      if i.value > 2 ^ 63 then .error .invalidDuration else .ok (i.value, rest) := by
  obtain ⟨hne, -, hns, hunit⟩ := unit_of_mem i.mem_unitMap
  obtain ⟨d, ds, hds⟩ := List.exists_cons_of_ne_nil i.digits_ne_nil
  have hd : d.isDigit = true := i.isDigit_of_mem d (by rw [hds]; exact List.mem_cons_self)
  have hhead : (i.text ++ rest).head?.any numberChar = true := by
    simp [Item.text, hds, numberChar, hd]
  have hpre : (i.unit ++ rest).length ≠ (i.text ++ rest).length := by
    simp only [Item.text, hds, List.length_append, List.length_cons]
    omega
  have hoverflow : Nat.ofDigitChars 10 i.digits 0 > 2 ^ 63 / i.ns ↔ i.value > 2 ^ 63 :=
    Nat.div_lt_iff_lt_mul hns
  by_cases hv : Nat.ofDigitChars 10 i.digits 0 > 2 ^ 63
  · have hvalue : i.value > 2 ^ 63 := lt_of_lt_of_le hv (Nat.le_mul_of_pos_right _ hns)
    simp only [parseItem, hhead, leadingInt_item, if_pos hv, if_pos hvalue, Bool.not_true,
      Bool.false_eq_true, if_false]
  · simp only [parseItem, hhead, leadingInt_item, if_neg hv, fraction_item, hpre,
      (takeWhile_unit i hrest).1, (takeWhile_unit i hrest).2, hne, hunit, hoverflow, ne_eq,
      not_false_eq_true, decide_true, Bool.not_true, Bool.false_and, Bool.false_eq_true,
      if_false, gt_iff_lt, lt_irrefl, false_and, Nat.zero_mul, Nat.zero_div, Nat.add_zero]
    rfl

end Item

/-- Reading a text that is not empty starts with an item. -/
theorem parseItems_succ {room d : ℕ} {s : Str} (hs : s ≠ []) :
    parseItems (room + 1) d s = (do
      let (v, rest) ← parseItem s
      if d + v > 2 ^ 63 then .error .invalidDuration else parseItems room (d + v) rest) := by
  cases s with
  | nil => exact absurd rfl hs
  | cons c s => rfl

/-- An item is not empty. -/
theorem Item.text_ne_nil (i : Item) : i.text ≠ [] := by
  simp [Item.text, i.digits_ne_nil]

/-- A list of items reads as its sum, if it is in range. -/
theorem parseItems_text (items : List Item) {room d : ℕ} (hroom : items.length ≤ room)
    (hd : d ≤ 2 ^ 63) :
    parseItems room d (text items) =
      if d + total items > 2 ^ 63 then .error .invalidDuration else .ok (d + total items) := by
  induction items generalizing room d with
  | nil =>
      have htotal : total [] = 0 := rfl
      rw [htotal, Nat.add_zero, if_neg (not_lt.mpr hd), text, List.flatMap_nil, parseItems]
  | cons i items ih =>
      have htext : text (i :: items) = i.text ++ text items := List.flatMap_cons
      have htotal : total (i :: items) = i.value + total items := List.sum_cons
      obtain ⟨room, rfl⟩ : ∃ r, room = r + 1 := Nat.exists_eq_add_of_le' (by simp at hroom; omega)
      rw [htext, htotal, parseItems_succ (by simp [i.text_ne_nil]),
        parseItem_append i (startsItem_text items)]
      by_cases hv : i.value > 2 ^ 63
      · rw [if_pos hv, if_pos (by omega)]
        rfl
      rw [if_neg hv]
      change (if d + i.value > 2 ^ 63 then _ else _) = _
      by_cases hsum : d + i.value > 2 ^ 63
      · rw [if_pos hsum, if_pos (by omega)]
      · rw [if_neg hsum, ih (by simpa using hroom) (not_lt.mp hsum), Nat.add_assoc]

/-- There are at most as many items as characters. -/
theorem length_le_length_text (items : List Item) : items.length ≤ (text items).length := by
  induction items with
  | nil => exact Nat.zero_le _
  | cons i items ih =>
      have hlength : 0 < i.text.length := List.length_pos_of_ne_nil i.text_ne_nil
      rw [text, List.flatMap_cons, List.length_append, ← text, List.length_cons]
      omega

/-- A list of items starts with a digit, which is not its only character. -/
theorem exists_text_eq_cons {items : List Item} (hne : items ≠ []) :
    ∃ d c s, text items = d :: c :: s ∧ d.isDigit = true := by
  obtain ⟨i, items, rfl⟩ := List.exists_cons_of_ne_nil hne
  obtain ⟨d, ds, hds⟩ := List.exists_cons_of_ne_nil i.digits_ne_nil
  obtain ⟨u, us, hus, -, -⟩ := i.exists_unit_cons
  obtain ⟨c, s, hcs⟩ := List.exists_cons_of_ne_nil
    (show ds ++ (i.unit ++ text items) ≠ [] by simp [hus])
  refine ⟨d, c, s, ?_, i.isDigit_of_mem d (by rw [hds]; exact List.mem_cons_self)⟩
  rw [text, List.flatMap_cons, ← text, Item.text, hds, ← hcs]
  simp

/-- A text that starts with a digit has no sign. -/
theorem sign_of_isDigit {d : Char} {s : Str} (hd : d.isDigit = true) :
    sign (d :: s) = (false, d :: s) := by
  unfold sign
  split
  · next heq => exact absurd (List.cons.inj heq).1 (ne_of_isDigit hd (by decide))
  · next heq => exact absurd (List.cons.inj heq).1 (ne_of_isDigit hd (by decide))
  · rfl

/-- **What a list of items reads as**: its sum, if that is in the range of 64 bits. -/
theorem parseDuration_text {items : List Item} (hne : items ≠ []) :
    parseDuration (text items) =
      if total items > 2 ^ 63 - 1 then .error .invalidDuration else .ok (total items : ℤ) := by
  obtain ⟨d, c, s, htext, hd⟩ := exists_text_eq_cons hne
  have hsign : sign (text items) = (false, text items) := by
    rw [htext]
    exact sign_of_isDigit hd
  have hzero : text items ≠ ['0'] := by simp [htext]
  have hnil : text items ≠ [] := by simp [htext]
  have hitems := parseItems_text items (d := 0) (length_le_length_text items) (Nat.zero_le _)
  rw [Nat.zero_add] at hitems
  simp only [parseDuration, hsign, if_neg hzero, if_neg hnil, hitems]
  by_cases hbig : total items > 2 ^ 63
  · rw [if_pos hbig, if_pos (by omega)]
    rfl
  · rw [if_neg hbig]
    rfl

end Duration
