import Mathlib.Data.Char
import Mathlib.Data.List.DropRight
import Mathlib.Data.List.Lex
import Mathlib.Data.List.Sort

/-!
# Texts as Character Lists

The texts of the development are lists of characters: splitting at a separator and
joining with it, splitting at white space, trimming, and decimal numerals. The
operations are those of the Go packages `strings`, `sort`, `unicode` and `strconv`; where the
core library already has the function on lists (`List.splitOn`, `List.intercalate`,
`Nat.toDigits`) it is used under the Go name.

## Main results

* `split_join`: a list of separator-free texts survives joining and splitting.
* `fields_append_cons`: white space cuts a text into two independent halves.
* `atoi_itoa`: a printed natural number reads back.
-/

namespace Text

/-- A text. -/
abbrev Str := List Char

instance : Coe String Str := ⟨String.toList⟩

/-! ### White space -/

/-- White space in the sense of `unicode.IsSpace`. -/
def isSpace (c : Char) : Bool :=
  c.toNat ∈ [0x09, 0x0a, 0x0b, 0x0c, 0x0d, 0x20, 0x85, 0xa0, 0x1680, 0x2028, 0x2029,
    0x202f, 0x205f, 0x3000] || (0x2000 ≤ c.toNat && c.toNat ≤ 0x200a)

/-- A text without white space. -/
def NoSpace (s : Str) : Prop :=
  ∀ c ∈ s, isSpace c = false

instance (s : Str) : Decidable (NoSpace s) :=
  List.decidableBAll (fun c => isSpace c = false) s

/-- Cut white space off both ends (`strings.TrimSpace`). -/
def trimSpace (s : Str) : Str :=
  (s.dropWhile isSpace).rdropWhile isSpace

/-- The maximal runs of non-space characters (`strings.Fields`). -/
def fields (s : Str) : List Str :=
  (s.splitOnP isSpace).filter fun f => !f.isEmpty

/-- A text without white space is not trimmed. -/
theorem trimSpace_eq_self {s : Str} (h : NoSpace s) : trimSpace s = s := by
  have hdrop : s.dropWhile isSpace = s := by
    cases s with
    | nil => rfl
    | cons c s => simp [h c (by simp)]
  rw [trimSpace, hdrop, List.rdropWhile_eq_self_iff]
  intro hne
  simp [h _ (List.getLast_mem hne)]

/-- The empty text has no fields. -/
@[simp] theorem fields_nil : fields [] = [] := rfl

/-- White space separates fields: what stands before it and what stands after it are
read independently. -/
theorem fields_append_cons (s t : Str) {c : Char} (hc : isSpace c = true) :
    fields (s ++ c :: t) = fields s ++ fields t := by
  rw [fields, List.splitOnP_append_cons _ _ hc, List.filter_append]
  rfl

/-- A nonempty text without white space is one field. -/
theorem fields_eq_singleton {s : Str} (hs : NoSpace s) (hne : s ≠ []) :
    fields s = [s] := by
  rw [fields, List.splitOnP_eq_singleton hs]
  simp [hne]

/-! ### Splitting and joining -/

/-- Split at every occurrence of a separator (`strings.Split`). -/
def split (sep : Char) (s : Str) : List Str :=
  s.splitOn sep

/-- Join with a separator (`strings.Join`). -/
def join (sep : Char) (l : List Str) : Str :=
  [sep].intercalate l

/-- Joining separator-free texts and splitting again gives the texts back. -/
theorem split_join {sep : Char} {l : List Str} (h : ∀ s ∈ l, sep ∉ s) (hne : l ≠ []) :
    split sep (join sep l) = l :=
  List.splitOn_intercalate sep h hne

/-- A text without the separator is its own only part. -/
theorem split_eq_singleton {sep : Char} {s : Str} (h : sep ∉ s) : split sep s = [s] :=
  List.splitOn_eq_singleton h

/-- Splitting cuts at a separator. -/
theorem split_append_cons (sep : Char) (s t : Str) :
    split sep (s ++ sep :: t) = split sep s ++ split sep t :=
  List.splitOn_append_cons_self s t

/-- Splitting always leaves a part. -/
theorem split_ne_nil (sep : Char) (s : Str) : split sep s ≠ [] :=
  List.splitOn_ne_nil sep s

/-- No part contains the separator. -/
theorem not_mem_of_mem_split {sep : Char} {s p : Str} (hp : p ∈ split sep s) : sep ∉ p := by
  induction s generalizing p with
  | nil =>
      simp only [split, List.splitOn_nil, List.mem_singleton] at hp
      simp [hp]
  | cons c s ih =>
      rw [split, List.splitOn_cons_eq_if_modifyHead] at hp
      split_ifs at hp with hc
      · rcases List.mem_cons.mp hp with rfl | hp
        · simp
        · exact ih hp
      · have hcs : c ≠ sep := by simpa using hc
        obtain ⟨q, qs, hq⟩ := List.exists_cons_of_ne_nil (split_ne_nil sep s)
        rw [split] at hq
        rw [hq, List.modifyHead_cons] at hp
        rcases List.mem_cons.mp hp with rfl | hp
        · have := ih (p := q) (by rw [split, hq]; simp)
          simp [this, hcs.symm]
        · exact ih (by rw [split, hq]; exact List.mem_cons_of_mem _ hp)

/-- A text of terminated pieces splits into the parts of the pieces and an empty rest. -/
theorem split_flatMap_terminated (sep : Char) (bs : List Str) :
    split sep (bs.flatMap fun b => b ++ [sep]) = bs.flatMap (split sep) ++ [[]] := by
  induction bs with
  | nil => simp [split]
  | cons b bs ih =>
      rw [List.flatMap_cons, List.flatMap_cons, List.append_assoc, List.singleton_append,
        split_append_cons, ih, List.append_assoc]

/-- A text is cut in one way at the first occurrence of a character. -/
theorem append_cons_inj_of_not_mem {x : Char} {s s' t t' : Str} (hs : x ∉ s) (hs' : x ∉ s')
    (h : s ++ x :: t = s' ++ x :: t') : s = s' ∧ t = t' := by
  induction s generalizing s' with
  | nil =>
      cases s' with
      | nil => exact ⟨rfl, (List.cons.inj h).2⟩
      | cons c s' => exact absurd ((List.cons.inj h).1 ▸ List.mem_cons_self) hs'
  | cons c s ih =>
      cases s' with
      | nil => exact absurd ((List.cons.inj h).1 ▸ List.mem_cons_self) hs
      | cons c' s' =>
          obtain ⟨rfl, htail⟩ := List.cons.inj h
          obtain ⟨rfl, rfl⟩ := ih (List.not_mem_of_not_mem_cons hs)
            (List.not_mem_of_not_mem_cons hs') htail
          exact ⟨rfl, rfl⟩

/-- Joining the parts of a text gives it back. -/
theorem join_split (sep : Char) (s : Str) : join sep (split sep s) = s :=
  List.intercalate_splitOn sep

/-- Joining, part by part. -/
theorem join_cons {sep : Char} (s : Str) {l : List Str} (hl : l ≠ []) :
    join sep (s :: l) = s ++ sep :: join sep l := by
  obtain ⟨t, l, rfl⟩ := List.exists_cons_of_ne_nil hl
  simp [join, List.intercalate_cons_cons]

/-- Text added to the last part. -/
theorem join_append_last {sep : Char} (l : List Str) (s post : Str) :
    join sep (l ++ [s ++ post]) = join sep (l ++ [s]) ++ post := by
  induction l with
  | nil => simp [join]
  | cons t l ih =>
      rw [List.cons_append, List.cons_append, join_cons t (by simp), join_cons t (by simp), ih]
      simp

/-- Separator-free text around a single part. -/
theorem split_frame_single {sep : Char} {s l : Str} (h : split sep s = [l]) {pre post : Str}
    (hpre : sep ∉ pre) (hpost : sep ∉ post) :
    split sep (pre ++ s ++ post) = [pre ++ l ++ post] := by
  have hl : sep ∉ l := not_mem_of_mem_split (s := s) (by simp [h])
  obtain rfl : l = s := by
    rw [← join_split sep s, h]
    simp [join]
  exact split_eq_singleton (by simp [hpre, hl, hpost])

/-- Separator-free text around several parts joins the first and the last one. -/
theorem split_frame {sep : Char} {s l₀ lₙ : Str} {mid : List Str}
    (h : split sep s = l₀ :: mid ++ [lₙ]) {pre post : Str} (hpre : sep ∉ pre)
    (hpost : sep ∉ post) :
    split sep (pre ++ s ++ post) = (pre ++ l₀) :: mid ++ [lₙ ++ post] := by
  have hparts : ∀ p ∈ l₀ :: mid ++ [lₙ], sep ∉ p := fun p hp =>
    not_mem_of_mem_split (s := s) (by rwa [h])
  have hs : s = l₀ ++ sep :: join sep (mid ++ [lₙ]) := by
    rw [← join_split sep s, h, List.cons_append, join_cons l₀ (by simp)]
  have hjoin : pre ++ s ++ post = join sep ((pre ++ l₀) :: mid ++ [lₙ ++ post]) := by
    rw [List.cons_append, join_cons _ (by simp), join_append_last, hs]
    simp
  rw [hjoin, split_join _ (by simp)]
  intro p hp
  simp only [List.cons_append, List.mem_cons, List.mem_append, List.not_mem_nil, or_false] at hp
  rcases hp with rfl | hp | rfl
  · simp [hpre, hparts l₀ (by simp)]
  · exact hparts p (by simp [hp])
  · simp [hpost, hparts lₙ (by simp)]

/-- Every character of a joined text is the separator or stands in one of the parts. -/
theorem mem_join {sep c : Char} {l : List Str} (h : c ∈ join sep l) :
    c = sep ∨ ∃ s ∈ l, c ∈ s := by
  induction l with
  | nil => simp [join] at h
  | cons s l ih =>
      cases l with
      | nil => exact .inr ⟨s, by simp, by simpa [join] using h⟩
      | cons t l =>
          rw [join, List.intercalate_cons_cons] at h
          rcases List.mem_append.mp h with h | h
          · rcases List.mem_append.mp h with h | h
            · exact .inr ⟨s, by simp, h⟩
            · exact .inl (by simpa using h)
          · rcases ih h with rfl | ⟨u, hu, hcu⟩
            · exact .inl rfl
            · exact .inr ⟨u, by simp [hu], hcu⟩

/-- Joining at least one nonempty text gives a nonempty text. -/
theorem join_ne_nil {sep : Char} {l : List Str} (hne : l ≠ []) (h : ∀ s ∈ l, s ≠ []) :
    join sep l ≠ [] := by
  obtain ⟨s, l, rfl⟩ := List.exists_cons_of_ne_nil hne
  have hs : s ≠ [] := h s (by simp)
  cases l with
  | nil => simpa [join] using hs
  | cons t l => simp [join, List.intercalate_cons_cons, hs]

/-! ### Runs of characters -/

/-- A run of characters of one kind ends at the first character of another. -/
theorem takeWhile_append_of_stop {p : Char → Bool} {t r : Str} (ht : ∀ c ∈ t, p c = true)
    (hr : ∀ c ∈ r.head?, p c = false) : (t ++ r).takeWhile p = t ∧ (t ++ r).dropWhile p = r := by
  have hstop : r.takeWhile p = [] ∧ r.dropWhile p = r := by
    cases r with
    | nil => exact ⟨rfl, rfl⟩
    | cons c r => simp [hr c (by simp)]
  rw [List.takeWhile_append_of_pos ht, List.dropWhile_append_of_pos ht, hstop.1, hstop.2]
  exact ⟨List.append_nil t, rfl⟩

/-! ### Sorting -/

/-- Sort texts in lexicographic order (`sort.Strings`, `slices.Sort`). -/
def sortStrings (l : List Str) : List Str :=
  l.insertionSort (· ≤ ·)

/-- Sorting keeps the elements. -/
@[simp] theorem mem_sortStrings {s : Str} {l : List Str} : s ∈ sortStrings l ↔ s ∈ l :=
  (List.perm_insertionSort _ l).mem_iff

/-- Sorted texts are in order. -/
theorem pairwise_sortStrings (l : List Str) : (sortStrings l).Pairwise (· ≤ ·) :=
  List.pairwise_insertionSort _ l

/-- Sorting forgets the order. -/
theorem sortStrings_eq_of_perm {l l' : List Str} (h : l.Perm l') :
    sortStrings l = sortStrings l' := by
  have hperm : (sortStrings l).Perm (sortStrings l') :=
    ((List.perm_insertionSort _ l).trans h).trans (List.perm_insertionSort _ l').symm
  exact hperm.eq_of_pairwise' (pairwise_sortStrings l) (pairwise_sortStrings l')

/-- Distinct texts stay distinct. -/
theorem nodup_sortStrings {l : List Str} (h : l.Nodup) : (sortStrings l).Nodup :=
  (List.perm_insertionSort _ l).nodup_iff.mpr h

/-- Distinct texts are sorted into strict order. -/
theorem pairwise_lt_sortStrings {l : List Str} (h : l.Nodup) :
    (sortStrings l).Pairwise (· < ·) :=
  ((pairwise_sortStrings l).and (nodup_sortStrings h)).imp fun hab => lt_of_le_of_ne hab.1 hab.2

/-! ### Decimal numerals -/

/-- Print a natural number in decimal (`strconv.Itoa`). -/
def itoa (n : Nat) : Str :=
  Nat.toDigits 10 n

/-- A nonempty run of decimal digits. -/
def allDigits (s : Str) : Bool :=
  !s.isEmpty && s.all Char.isDigit

/-- Read a run of decimal digits (`strconv.Atoi` on unsigned input). -/
def atoi (s : Str) : Option Nat :=
  if allDigits s then some (Nat.ofDigitChars 10 s 0) else none

/-- A printed number consists of digits. -/
theorem isDigit_of_mem_itoa {n : Nat} {c : Char} (h : c ∈ itoa n) : c.isDigit = true :=
  Nat.isDigit_of_mem_toDigits (by omega) (by omega) h

/-- A printed number is not empty. -/
theorem itoa_ne_nil (n : Nat) : itoa n ≠ [] :=
  Nat.toDigits_ne_nil

/-- A printed number is a run of digits. -/
theorem allDigits_itoa (n : Nat) : allDigits (itoa n) = true := by
  simp only [allDigits, Bool.and_eq_true, Bool.not_eq_true', List.isEmpty_eq_false_iff,
    List.all_eq_true]
  exact ⟨itoa_ne_nil n, fun c hc => isDigit_of_mem_itoa hc⟩

/-- **Numerals round trip**: a printed number reads back. -/
@[simp] theorem atoi_itoa (n : Nat) : atoi (itoa n) = some n := by
  rw [atoi, if_pos (allDigits_itoa n), itoa, Nat.ofDigitChars_ten_toDigits]

/-- A digit is none of the characters outside `0`–`9`. -/
theorem ne_of_isDigit {c d : Char} (hc : c.isDigit = true) (hd : d.isDigit = false) :
    c ≠ d := by
  rintro rfl
  rw [hc] at hd
  exact absurd hd (by decide)

/-! ### Hexadecimal digits -/

/-- The value of a hexadecimal digit. -/
def hexVal (c : Char) : Nat :=
  if c.isDigit then c.toNat - '0'.toNat
  else if 'a' ≤ c ∧ c ≤ 'f' then c.toNat - 'a'.toNat + 10
  else c.toNat - 'A'.toNat + 10

/-- A hexadecimal digit, in either case. -/
def isHex (c : Char) : Bool :=
  c.isDigit || ('a' ≤ c && c ≤ 'f') || ('A' ≤ c && c ≤ 'F')

/-- The hexadecimal digit of a number below sixteen, in lower case. -/
def hexDigit (n : Nat) : Char :=
  if n < 10 then Char.ofNat ('0'.toNat + n) else Char.ofNat ('a'.toNat + (n - 10))

/-- A printed hexadecimal digit reads back. -/
theorem hexVal_hexDigit {n : Nat} (hn : n < 16) :
    isHex (hexDigit n) = true ∧ hexVal (hexDigit n) = n := by
  revert n
  decide

end Text
