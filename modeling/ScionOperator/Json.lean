import Mathlib
import ScionOperator.Text

/-!
# JSON Values and Their Texts

The JSON of `encoding/json`: the values, a recursive-descent reader, and a printer
parameterised by where it puts white space, so that `Marshal` and `MarshalIndent` are two
layouts of one function.

A text is a list of Unicode characters. Bytes that are no valid UTF-8 read as the
replacement character inside a string and as a syntax error outside of one, so a byte
string behaves like its text with such bytes replaced. Number tokens are kept as they are
written, members of an object in their order and with repetitions, and strings decoded.

The reader's fuel bounds its recursion. A value is given as much of it as its text has
characters, and one more: every call takes at least one of them.

## Main definitions

* `Value`, `NumLit`: JSON values; a number is a token that the scanner takes whole.
* `parseValue`: read one value and return the rest of the text.
* `unmarshal`, `decodeFirst`: `json.Unmarshal` and `Decoder.Decode` on a limited reader.
* `printValue`, `marshal`, `marshalIndent`: the printers.
-/

namespace Json

open Text

/-! ### Numbers -/

/-- The integer part of a number: a zero, or a run of digits that starts otherwise. -/
def scanInt : Str → Option (Str × Str)
  | [] => none
  | c :: r =>
      if c = '0' then some (['0'], r)
      else if c.isDigit then some (c :: r.takeWhile Char.isDigit, r.dropWhile Char.isDigit)
      else none

/-- The fraction of a number, if there is one. -/
def scanFrac : Str → Option (Str × Str)
  | [] => some ([], [])
  | c :: r =>
      if c = '.' then
        if r.takeWhile Char.isDigit = [] then none
        else some ('.' :: r.takeWhile Char.isDigit, r.dropWhile Char.isDigit)
      else some ([], c :: r)

/-- The sign of an exponent, if there is one. -/
def scanSign : Str → Str × Str
  | [] => ([], [])
  | c :: r => if c = '+' ∨ c = '-' then ([c], r) else ([], c :: r)

/-- The exponent of a number, if there is one. -/
def scanExp : Str → Option (Str × Str)
  | [] => some ([], [])
  | c :: r =>
      if c = 'e' ∨ c = 'E' then
        if (scanSign r).2.takeWhile Char.isDigit = [] then none
        else some (c :: (scanSign r).1 ++ (scanSign r).2.takeWhile Char.isDigit,
          (scanSign r).2.dropWhile Char.isDigit)
      else some ([], c :: r)

/-- A number without its sign. -/
def scanUnsigned (s : Str) : Option (Str × Str) := do
  let (int, s) ← scanInt s
  let (frac, s) ← scanFrac s
  let (exp, s) ← scanExp s
  pure (int ++ frac ++ exp, s)

/-- A number token and the text after it. -/
def scanNumber : Str → Option (Str × Str)
  | [] => none
  | c :: r =>
      if c = '-' then (scanUnsigned r).map fun (t, s) => ('-' :: t, s)
      else scanUnsigned (c :: r)

/-- A text that does not start with a character that continues a number. -/
def EndsNumber (s : Str) : Prop :=
  ∀ c ∈ s.head?, c.isDigit = false ∧ c ≠ '.' ∧ c ≠ 'e' ∧ c ≠ 'E'

/-- The end of the text ends a number. -/
theorem endsNumber_nil : EndsNumber [] := by
  simp [EndsNumber]

/-- The digits of a run. -/
theorem isDigit_of_mem_takeWhile {s : Str} : ∀ c ∈ s.takeWhile Char.isDigit, c.isDigit = true :=
  fun _ hc => List.mem_takeWhile_imp hc

/-- The integer part does not depend on what follows the token. -/
theorem scanInt_append {s t r : Str} (h : scanInt s = some (t, r)) {r' : Str}
    (hr' : ∀ c ∈ r'.head?, c.isDigit = false) :
    scanInt (t ++ r') = some (t, r') ∧ t ≠ [] := by
  cases s with
  | nil => cases h
  | cons c s =>
      rw [scanInt] at h
      split_ifs at h with h0 hd
      · obtain ⟨rfl, -⟩ := Prod.mk.inj (Option.some.inj h)
        exact ⟨rfl, by simp⟩
      · obtain ⟨rfl, -⟩ := Prod.mk.inj (Option.some.inj h)
        obtain ⟨htake, hdrop⟩ := takeWhile_append_of_stop (isDigit_of_mem_takeWhile (s := s)) hr'
        refine ⟨?_, by simp⟩
        rw [List.cons_append, scanInt, if_neg h0, if_pos hd, htake, hdrop]

/-- The fraction does not depend on what follows the token. -/
theorem scanFrac_append {s t r : Str} (h : scanFrac s = some (t, r)) {r' : Str}
    (hr' : ∀ c ∈ r'.head?, c.isDigit = false ∧ c ≠ '.') :
    scanFrac (t ++ r') = some (t, r') ∧ ∀ c ∈ t.head?, c = '.' := by
  have hnone : scanFrac r' = some ([], r') := by
    cases r' with
    | nil => rfl
    | cons c r' => rw [scanFrac, if_neg (hr' c (by simp)).2]
  cases s with
  | nil =>
      obtain ⟨rfl, -⟩ := Prod.mk.inj (Option.some.inj h)
      exact ⟨hnone, by simp⟩
  | cons c s =>
      rw [scanFrac] at h
      split_ifs at h with hdot hempty
      · obtain ⟨rfl, -⟩ := Prod.mk.inj (Option.some.inj h)
        obtain ⟨htake, hdrop⟩ := takeWhile_append_of_stop (isDigit_of_mem_takeWhile (s := s))
          fun c hc => (hr' c hc).1
        refine ⟨?_, by simp⟩
        rw [List.cons_append, scanFrac, if_pos rfl, htake, hdrop, if_neg hempty]
      · obtain ⟨rfl, -⟩ := Prod.mk.inj (Option.some.inj h)
        exact ⟨hnone, by simp⟩

/-- The sign of an exponent does not depend on the digits after it. -/
theorem scanSign_append {s t : Str} (ht : ∀ c ∈ t.head?, c.isDigit = true) :
    scanSign ((scanSign s).1 ++ t) = ((scanSign s).1, t) := by
  have hnone : scanSign t = ([], t) := by
    cases t with
    | nil => rfl
    | cons c t =>
        have hd := ht c (by simp)
        rw [scanSign, if_neg]
        rintro (rfl | rfl) <;> exact absurd hd (by decide)
  cases s with
  | nil => exact hnone
  | cons c s =>
      rw [scanSign]
      split_ifs with hc
      · exact if_pos hc
      · exact hnone

/-- The exponent does not depend on what follows the token. -/
theorem scanExp_append {s t r : Str} (h : scanExp s = some (t, r)) {r' : Str}
    (hr' : EndsNumber r') :
    scanExp (t ++ r') = some (t, r') ∧ ∀ c ∈ t.head?, c = 'e' ∨ c = 'E' := by
  have hnone : scanExp r' = some ([], r') := by
    cases r' with
    | nil => rfl
    | cons c r' =>
        obtain ⟨-, -, he, hE⟩ := hr' c (by simp)
        rw [scanExp, if_neg (by simp [he, hE])]
  cases s with
  | nil =>
      obtain ⟨rfl, -⟩ := Prod.mk.inj (Option.some.inj h)
      exact ⟨hnone, by simp⟩
  | cons c s =>
      rw [scanExp] at h
      split_ifs at h with he hempty
      · obtain ⟨rfl, -⟩ := Prod.mk.inj (Option.some.inj h)
        have hall := isDigit_of_mem_takeWhile (s := (scanSign s).2)
        obtain ⟨htake, hdrop⟩ := takeWhile_append_of_stop hall fun c hc => (hr' c hc).1
        have hsign := scanSign_append (s := s)
          (t := (scanSign s).2.takeWhile Char.isDigit ++ r') (by
            obtain ⟨d, ds, hds⟩ := List.exists_cons_of_ne_nil hempty
            rw [hds] at hall ⊢
            simpa using hall d (by simp))
        refine ⟨?_, by simpa using he⟩
        rw [List.cons_append, List.cons_append, List.append_assoc, scanExp, if_pos he, hsign, htake,
          hdrop, if_neg hempty, List.cons_append]
      · obtain ⟨rfl, -⟩ := Prod.mk.inj (Option.some.inj h)
        exact ⟨hnone, by simp⟩

/-- An unsigned number does not depend on what follows the token. -/
theorem scanUnsigned_append {s t r : Str} (h : scanUnsigned s = some (t, r)) {r' : Str}
    (hr' : EndsNumber r') :
    scanUnsigned (t ++ r') = some (t, r') ∧ ∃ c ∈ t.head?, c.isDigit = true := by
  simp only [scanUnsigned, Option.bind_eq_bind, Option.bind_eq_some_iff, Option.pure_def,
    Option.some.injEq, Prod.exists, Prod.mk.injEq] at h
  obtain ⟨int, s₁, hint, frac, s₂, hfrac, exp, s₃, hexp, rfl, -⟩ := h
  obtain ⟨hexp', hexphead⟩ := scanExp_append hexp hr'
  have hafter : ∀ c ∈ (exp ++ r').head?, c.isDigit = false ∧ c ≠ '.' := by
    intro c hc
    rcases exp with _ | ⟨e, exp⟩
    · exact ⟨(hr' c hc).1, (hr' c hc).2.1⟩
    · obtain rfl : e = c := by simpa using hc
      rcases hexphead e (by simp) with rfl | rfl <;> decide
  obtain ⟨hfrac', hfrachead⟩ := scanFrac_append hfrac hafter
  have hafter' : ∀ c ∈ (frac ++ (exp ++ r')).head?, c.isDigit = false := by
    intro c hc
    rcases frac with _ | ⟨d, frac⟩
    · exact (hafter c hc).1
    · obtain rfl : d = c := by simpa using hc
      rw [hfrachead d (by simp)]
      decide
  obtain ⟨hint', hne⟩ := scanInt_append hint hafter'
  constructor
  · rw [List.append_assoc, List.append_assoc, scanUnsigned, hint']
    simp [hfrac', hexp']
  · obtain ⟨c, int, rfl⟩ := List.exists_cons_of_ne_nil hne
    refine ⟨c, by simp, ?_⟩
    rw [List.cons_append, scanInt] at hint'
    split_ifs at hint' with h0 hd
    · rw [h0]
      decide
    · exact hd

/-- A number token reads the same whatever follows it, as long as that does not continue
the number. -/
theorem scanNumber_append {s t r : Str} (h : scanNumber s = some (t, r)) {r' : Str}
    (hr' : EndsNumber r') : scanNumber (t ++ r') = some (t, r') := by
  cases s with
  | nil => cases h
  | cons c s =>
      rw [scanNumber] at h
      split_ifs at h with hc
      · simp only [Option.map_eq_some_iff, Prod.exists, Prod.mk.injEq] at h
        obtain ⟨t, s', hscan, rfl, -⟩ := h
        rw [List.cons_append, scanNumber, if_pos rfl, (scanUnsigned_append hscan hr').1]
        rfl
      · obtain ⟨happ, d, hd, hdigit⟩ := scanUnsigned_append h hr'
        rcases t with _ | ⟨d', t⟩
        · simp at hd
        · obtain rfl : d' = d := by simpa using hd
          rw [List.cons_append] at happ ⊢
          rw [scanNumber, if_neg, happ]
          rintro rfl
          exact absurd hdigit (by decide)

/-- A number token: the scanner takes all of it. -/
def isNumber (s : Str) : Bool :=
  scanNumber s = some (s, [])

/-- What the scanner takes is a number token. -/
theorem isNumber_of_scanNumber {s t r : Str} (h : scanNumber s = some (t, r)) :
    isNumber t = true := by
  have h' := scanNumber_append h endsNumber_nil
  rw [List.append_nil] at h'
  simp [isNumber, h']

/-- A number, as it is written. -/
structure NumLit where
  text : Str
  valid : isNumber text = true
deriving DecidableEq

/-- The number one. -/
def NumLit.one : NumLit :=
  ⟨['1'], by decide⟩

/-! ### Strings -/

/-- The character a one-letter escape stands for. -/
def unescape (c : Char) : Option Char :=
  if c = '"' ∨ c = '\\' ∨ c = '/' then some c
  else if c = 'b' then some (Char.ofNat 8)
  else if c = 'f' then some (Char.ofNat 12)
  else if c = 'n' then some '\n'
  else if c = 'r' then some '\r'
  else if c = 't' then some '\t'
  else none

/-- The number of four hexadecimal digits. -/
def hex4 (a b c d : Char) : ℕ :=
  ((hexVal a * 16 + hexVal b) * 16 + hexVal c) * 16 + hexVal d

/-- The code points of a string token up to its closing quote, and the text after it. A
`\u` escape may stand for half of a surrogate pair. -/
def scanCodes : Str → Option (List ℕ × Str)
  | [] => none
  | c :: r =>
      if c = '"' then some ([], r)
      else if c = '\\' then
        match r with
        | 'u' :: h₁ :: h₂ :: h₃ :: h₄ :: r' =>
            if isHex h₁ && isHex h₂ && isHex h₃ && isHex h₄ then
              (scanCodes r').map fun (cs, s) => (hex4 h₁ h₂ h₃ h₄ :: cs, s)
            else none
        | e :: r' =>
            match unescape e with
            | some x => (scanCodes r').map fun (cs, s) => (x.toNat :: cs, s)
            | none => none
        | [] => none
      else if c.toNat < 32 then none
      else (scanCodes r).map fun (cs, s) => (c.toNat :: cs, s)

/-- Half of a surrogate pair. -/
def isSurrogate (n : ℕ) : Bool :=
  0xD800 ≤ n && n < 0xE000

/-- The character of a code point; half of a pair is replaced. -/
def charOf (n : ℕ) : Char :=
  if isSurrogate n then Char.ofNat 0xFFFD else Char.ofNat n

/-- The characters of code points, surrogate pairs joined. -/
def decodeCodes : List ℕ → Str
  | [] => []
  | [n] => [charOf n]
  | hi :: lo :: ns =>
      if (0xD800 ≤ hi ∧ hi < 0xDC00) ∧ 0xDC00 ≤ lo ∧ lo < 0xE000 then
        Char.ofNat ((hi - 0xD800) * 1024 + (lo - 0xDC00) + 0x10000) :: decodeCodes ns
      else charOf hi :: decodeCodes (lo :: ns)

/-- A string after its opening quote, and the text after it. -/
def scanString (s : Str) : Option (Str × Str) :=
  (scanCodes s).map fun (cs, r) => (decodeCodes cs, r)

/-- A `\u` escape. -/
def escapeCode (n : ℕ) : Str :=
  ['\\', 'u', hexDigit (n / 4096 % 16), hexDigit (n / 256 % 16), hexDigit (n / 16 % 16),
    hexDigit (n % 16)]

/-- How a character of a string is printed. The characters that HTML gives a meaning and
the two line separators are escaped as well. -/
def escapeChar (c : Char) : Str :=
  if c = '"' ∨ c = '\\' then ['\\', c]
  else if c.toNat = 8 then ['\\', 'b']
  else if c.toNat = 12 then ['\\', 'f']
  else if c = '\n' then ['\\', 'n']
  else if c = '\r' then ['\\', 'r']
  else if c = '\t' then ['\\', 't']
  else if c.toNat < 32 ∨ c = '<' ∨ c = '>' ∨ c = '&' ∨ c.toNat = 0x2028 ∨ c.toNat = 0x2029 then
    escapeCode c.toNat
  else [c]

/-- A string, quoted. -/
def quote (s : Str) : Str :=
  '"' :: s.flatMap escapeChar ++ ['"']

/-! ### Values -/

/-- A JSON value. Objects keep the order of their members and repeated keys. -/
inductive Value
  | null
  | bool (b : Bool)
  | num (n : NumLit)
  | str (s : Str)
  | arr (items : List Value)
  | obj (members : List (Str × Value))

mutual

/-- How deep arrays and objects are nested. -/
def Value.depth : Value → ℕ
  | .arr items => depthItems items + 1
  | .obj members => depthMembers members + 1
  | _ => 0

/-- The greatest depth of the items of an array. -/
def depthItems : List Value → ℕ
  | [] => 0
  | v :: vs => max v.depth (depthItems vs)

/-- The greatest depth of the members of an object. -/
def depthMembers : List (Str × Value) → ℕ
  | [] => 0
  | (_, v) :: ms => max v.depth (depthMembers ms)

end

/-- Members nested at most `n` deep. -/
theorem depthMembers_le {n : ℕ} {ms : List (Str × Value)} :
    depthMembers ms ≤ n ↔ ∀ m ∈ ms, m.2.depth ≤ n := by
  induction ms with
  | nil => simp [depthMembers]
  | cons m ms ih => simp [depthMembers, ih]

/-! ### Reading -/

/-- The white space of JSON. -/
def isBlank (c : Char) : Bool :=
  c = ' ' || c = '\t' || c = '\n' || c = '\r'

/-- Skip white space. -/
def skipBlank (s : Str) : Str :=
  s.dropWhile isBlank

/-- Read a value that is no array or object. -/
def parseScalar : Str → Option (Value × Str)
  | 'n' :: 'u' :: 'l' :: 'l' :: r => some (.null, r)
  | 't' :: 'r' :: 'u' :: 'e' :: r => some (.bool true, r)
  | 'f' :: 'a' :: 'l' :: 's' :: 'e' :: r => some (.bool false, r)
  | '"' :: r => (scanString r).map fun (t, s) => (.str t, s)
  | t =>
      match h : scanNumber t with
      | some (lit, s) => some (.num ⟨lit, isNumber_of_scanNumber h⟩, s)
      | none => none

mutual

/-- Read one value, after white space. -/
def parseValue : ℕ → Str → Option (Value × Str)
  | 0, _ => none
  | fuel + 1, s =>
      match skipBlank s with
      | '[' :: r =>
          match skipBlank r with
          | ']' :: r' => some (.arr [], r')
          | _ => (parseItems fuel r).map fun (vs, s) => (.arr vs, s)
      | '\x7b' :: r =>
          match skipBlank r with
          | '\x7d' :: r' => some (.obj [], r')
          | _ => (parseMembers fuel r).map fun (ms, s) => (.obj ms, s)
      | t => parseScalar t

/-- Read the items of an array that has some, with the closing bracket. -/
def parseItems : ℕ → Str → Option (List Value × Str)
  | 0, _ => none
  | fuel + 1, s =>
      match parseValue fuel s with
      | none => none
      | some (v, s) =>
          match skipBlank s with
          | ',' :: s => (parseItems fuel s).map fun (vs, s) => (v :: vs, s)
          | ']' :: s => some ([v], s)
          | _ => none

/-- Read the members of an object that has some, with the closing brace. -/
def parseMembers : ℕ → Str → Option (List (Str × Value) × Str)
  | 0, _ => none
  | fuel + 1, s =>
      match skipBlank s with
      | '"' :: s =>
          match scanString s with
          | none => none
          | some (k, s) =>
              match skipBlank s with
              | ':' :: s =>
                  match parseValue fuel s with
                  | none => none
                  | some (v, s) =>
                      match skipBlank s with
                      | ',' :: s => (parseMembers fuel s).map fun (ms, s) => ((k, v) :: ms, s)
                      | '\x7d' :: s => some ([(k, v)], s)
                      | _ => none
              | _ => none
      | _ => none

end

/-- `encoding/json` rejects values nested deeper than this. -/
def maxDepth : ℕ :=
  10000

/-- Read a text that holds one value (`json.Unmarshal`, up to storing the value). -/
def unmarshal (text : Str) : Option Value :=
  match parseValue (text.length + 1) text with
  | some (v, s) => if skipBlank s = [] ∧ v.depth ≤ maxDepth then some v else none
  | none => none

/-- The length of a text in bytes. -/
def byteLength (s : Str) : ℕ :=
  (s.map Char.utf8Size).sum

/-- Read the first value of a text of which only the first `limit` bytes can be read
(`Decoder.Decode` on an `http.MaxBytesReader`). The decoder knows that an array or an
object is complete; for any other value it looks at one more byte, or at the end of the
input. What follows the value is not looked at. -/
def decodeFirst (limit : ℕ) (text : Str) : Option Value :=
  match parseValue (text.length + 1) text with
  | some (v, s) =>
      let lookahead := match v with
        | .arr _ | .obj _ => 0
        | _ => if s = [] then 0 else 1
      if byteLength text - byteLength s + lookahead ≤ limit ∧ v.depth ≤ maxDepth then some v
      else none
  | none => none

/-! ### Printing -/

/-- Where a printer puts white space: before an item or a closing bracket at some depth,
and after the colon of a member. -/
structure Layout where
  newline : ℕ → Str
  space : Str
  newline_blank : ∀ d, ∀ c ∈ newline d, isBlank c = true
  space_blank : ∀ c ∈ space, isBlank c = true

/-- No white space at all. -/
def Layout.compact : Layout where
  newline _ := []
  space := []
  newline_blank := by simp
  space_blank := by simp

/-- A line for each item, indented by `width` spaces for each level. -/
def Layout.indented (width : ℕ) : Layout where
  newline d := '\n' :: List.replicate (d * width) ' '
  space := [' ']
  newline_blank := by
    intro d c hc
    rcases List.mem_cons.mp hc with rfl | hc
    · decide
    · rw [List.eq_of_mem_replicate hc]
      decide
  space_blank := by simp [isBlank]

variable (L : Layout)

mutual

/-- Print a value that stands at depth `d`. -/
def printValue (d : ℕ) : Value → Str
  | .null => ['n', 'u', 'l', 'l']
  | .bool true => ['t', 'r', 'u', 'e']
  | .bool false => ['f', 'a', 'l', 's', 'e']
  | .num n => n.text
  | .str s => quote s
  | .arr [] => ['[', ']']
  | .arr (v :: vs) => '[' :: (L.newline (d + 1) ++ printValue (d + 1) v ++ printItems d vs)
  | .obj [] => ['\x7b', '\x7d']
  | .obj ((k, v) :: ms) =>
      '\x7b' :: (L.newline (d + 1) ++ quote k ++ ':' :: L.space ++ printValue (d + 1) v ++
        printMembers d ms)

/-- Print what follows an item of an array: the other items and the closing bracket. -/
def printItems (d : ℕ) : List Value → Str
  | [] => L.newline d ++ [']']
  | v :: vs => ',' :: (L.newline (d + 1) ++ printValue (d + 1) v ++ printItems d vs)

/-- Print what follows a member of an object: the other members and the closing brace. -/
def printMembers (d : ℕ) : List (Str × Value) → Str
  | [] => L.newline d ++ ['\x7d']
  | (k, v) :: ms =>
      ',' :: (L.newline (d + 1) ++ quote k ++ ':' :: L.space ++ printValue (d + 1) v ++
        printMembers d ms)

end

/-- Print a value without white space (`json.Marshal`). -/
def marshal (v : Value) : Str :=
  printValue .compact 0 v

/-- Print a value over several lines (`json.MarshalIndent` without a line start). -/
def marshalIndent (width : ℕ) (v : Value) : Str :=
  printValue (.indented width) 0 v

end Json
