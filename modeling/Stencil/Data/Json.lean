import Stencil.Data.Basic
import Stencil.Number.Literal
import Stencil.Text.Quoted

/-!
# JSON

A JSON text is cut into tokens, and the tokens are read as one value.  The reader is strict:
it takes no comments, no trailing commas, no leading zeros, and nothing after the value.  Of
repeated fields the last one counts.

Both stages consume what they read, and this is why they end: a scanned token leaves a shorter text
(`length_lt_of_scanToken`), and a parsed value carries the proof that fewer tokens are left
(`Parsed`), which the items of a list and the fields of a record pass on.
-/

namespace Stencil.Json

/-- A token of a JSON text. -/
inductive Token where
  | beginRecord
  | endRecord
  | beginList
  | endList
  | colon
  | comma
  | string (s : String)
  /-- Any other scalar. -/
  | scalar (d : Data)

/-! ## Strings -/

/-- The value of a hexadecimal digit. -/
def hexValue? (c : Char) : Option Nat :=
  if c.isDigit then some (c.toNat - '0'.toNat)
  else if 'a' ≤ c ∧ c ≤ 'f' then some (c.toNat - 'a'.toNat + 10)
  else if 'A' ≤ c ∧ c ≤ 'F' then some (c.toNat - 'A'.toNat + 10)
  else none

/-- The 16-bit unit of four hexadecimal digits. -/
def unit? (a b c d : Char) : Option Nat := do
  let a ← hexValue? a
  let b ← hexValue? b
  let c ← hexValue? c
  let d ← hexValue? d
  return ((a * 16 + b) * 16 + c) * 16 + d

/-- Whether a unit is the first half of a pair. -/
def isHighHalf (u : Nat) : Bool :=
  0xD800 ≤ u && u < 0xDC00

/-- Whether a unit is the second half of a pair. -/
def isLowHalf (u : Nat) : Bool :=
  0xDC00 ≤ u && u < 0xE000

/-- The character that stands for half a pair without the other half. -/
def replacement : Char := Char.ofNat 0xFFFD

/-- The character of a unit. -/
def ofUnit (u : Nat) : Char :=
  if isHighHalf u || isLowHalf u then replacement else Char.ofNat u

/-- The character of a pair of units. -/
def ofPair (high low : Nat) : Char :=
  Char.ofNat (0x10000 + (high - 0xD800) * 0x400 + (low - 0xDC00))

/-- The character of a short escape. -/
def unescape? (c : Char) : Option Char :=
  if c = Quoted.quote ∨ c = Quoted.backslash ∨ c = '/' then some c
  else if c = 'b' then some '\x08'
  else if c = 'f' then some '\x0c'
  else if c = 'n' then some '\n'
  else if c = 'r' then some '\r'
  else if c = 't' then some '\t'
  else none

/-- A character put before a scanned string. -/
def consChar (c : Char) (scanned : Option (List Char × List Char)) :
    Option (List Char × List Char) :=
  scanned.map fun (s, rest) => (c :: s, rest)

/-- The string up to the closing quotation mark, and the text after the mark. -/
def scanString : List Char → Option (List Char × List Char)
  | [] => none
  | '\\' :: 'u' :: a :: b :: c :: d :: '\\' :: 'u' :: e :: f :: g :: h :: rest =>
    match unit? a b c d, unit? e f g h with
    | some high, some low =>
      if isHighHalf high && isLowHalf low then consChar (ofPair high low) (scanString rest)
      else
        consChar (ofUnit high)
          (scanString ('\\' :: 'u' :: e :: f :: g :: h :: rest))
    | _, _ => none
  | '\\' :: 'u' :: a :: b :: c :: d :: rest =>
    match unit? a b c d with
    | some u => consChar (ofUnit u) (scanString rest)
    | none => none
  | '\\' :: c :: rest =>
    match unescape? c with
    | some c => consChar c (scanString rest)
    | none => none
  | c :: rest =>
    if c = Quoted.quote then some ([], rest)
    else if c.toNat < 32 ∨ c = Quoted.backslash then none
    else consChar c (scanString rest)

theorem length_lt_of_consChar {c : Char} {scanned : Option (List Char × List Char)}
    {t rest : List Char} {n : Nat} (h : consChar c scanned = some (t, rest))
    (shorter : ∀ t rest, scanned = some (t, rest) → rest.length < n) : rest.length < n := by
  obtain ⟨⟨u, r⟩, hu, h⟩ := Option.map_eq_some_iff.1 h
  cases h
  exact shorter _ _ hu

theorem length_lt_of_scanString {s t rest : List Char} (h : scanString s = some (t, rest)) :
    rest.length < s.length := by
  -- one case for each way in which the scan goes on; a pair of escapes is taken as one character
  -- or as two
  fun_induction scanString s generalizing t rest with
  | case1 => simp at h
  | case2 a b c d e f g h' r high low hh hl pair ih =>
    refine length_lt_of_consChar h fun t rest hr => ?_
    have := ih hr
    simp only [List.length_cons]
    omega
  | case3 a b c d e f g h' r high low hh hl single ih =>
    refine length_lt_of_consChar h fun t rest hr => ?_
    have := ih hr
    simp only [List.length_cons] at this ⊢
    omega
  | case4 => simp at h
  | case5 a b c d r _ u hu ih =>
    refine length_lt_of_consChar h fun t rest hr => ?_
    have := ih hr
    simp only [List.length_cons]
    omega
  | case6 => simp at h
  | case7 c r _ _ u hu ih =>
    refine length_lt_of_consChar h fun t rest hr => ?_
    have := ih hr
    simp only [List.length_cons]
    omega
  | case8 => simp at h
  | case9 => simp_all
  | case10 => simp at h
  | case11 c r _ _ _ _ _ ih =>
    refine length_lt_of_consChar h fun t rest hr => ?_
    have := ih hr
    simp only [List.length_cons]
    omega

/-! ## Tokens -/

/-- Whether a character may stand between tokens. -/
def isSpace (c : Char) : Bool :=
  c == ' ' || c == '\t' || c == '\n' || c == '\r'

/-- The token that is a single mark. -/
def mark? (c : Char) : Option Token :=
  if c = '\x7b' then some .beginRecord
  else if c = '\x7d' then some .endRecord
  else if c = '[' then some .beginList
  else if c = ']' then some .endList
  else if c = ':' then some .colon
  else if c = ',' then some .comma
  else none

/-- The words that are values. -/
def words : List (List Char × Data) :=
  [("true".toList, .boolean true), ("false".toList, .boolean false), ("null".toList, .null)]

/-- The word at the front of a text, as a value, and the rest. -/
def scanWord (s : List Char) : Option (Data × List Char) :=
  words.findSome? fun (word, value) =>
    if word.isPrefixOf s then some (value, s.drop word.length) else none

/-- The number at the front of a text, and the rest.  Its whole part has no needless zero. -/
def scanNumber (s : List Char) : Option (Data × List Char) :=
  match Literal.scan s with
  | some (literal, rest) =>
    match literal.whole with
    | '0' :: _ :: _ => none
    | _ => some (.number literal.value, rest)
  | none => none

/-- The token at the front of a text that begins with no space, and the rest. -/
def scanToken (s : List Char) : Option (Token × List Char) :=
  match s with
  | [] => none
  | c :: rest =>
    match mark? c with
    | some token => some (token, rest)
    | none =>
      if c = Quoted.quote then
        (scanString rest).map fun (text, rest) => (.string (String.ofList text), rest)
      else
        ((scanWord s).or (scanNumber s)).map fun (value, rest) => (.scalar value, rest)

theorem length_lt_of_scanWord {s rest : List Char} {d : Data}
    (h : scanWord s = some (d, rest)) : rest.length < s.length := by
  obtain ⟨⟨word, value⟩, hw, h⟩ := List.exists_of_findSome?_eq_some h
  dsimp only at h
  split at h
  · next inside =>
    simp only [Option.some.injEq, Prod.mk.injEq] at h
    have fits := (List.isPrefixOf_iff_prefix.1 inside).length_le
    have : 0 < word.length := by
      simp only [words, List.mem_cons, Prod.mk.injEq, List.not_mem_nil, or_false] at hw
      rcases hw with ⟨rfl, _⟩ | ⟨rfl, _⟩ | ⟨rfl, _⟩ <;> decide
    rw [← h.2, List.length_drop]
    omega
  · simp at h

theorem length_lt_of_scanNumber {s rest : List Char} {d : Data}
    (h : scanNumber s = some (d, rest)) : rest.length < s.length := by
  unfold scanNumber at h
  split at h
  · next literal after hs =>
    have := Literal.length_lt_of_scan hs
    split at h
    · simp at h
    · simp only [Option.some.injEq, Prod.mk.injEq] at h
      rwa [← h.2]
  · simp at h

theorem length_lt_of_scanToken {s rest : List Char} {token : Token}
    (h : scanToken s = some (token, rest)) : rest.length < s.length := by
  unfold scanToken at h
  split at h
  · simp at h
  · next c r =>
    split at h
    · simp only [Option.some.injEq, Prod.mk.injEq] at h
      simp [← h.2]
    · split at h
      · obtain ⟨⟨text, after⟩, ht, h⟩ := Option.map_eq_some_iff.1 h
        have := length_lt_of_scanString ht
        cases h
        simp only [List.length_cons]
        omega
      · -- neither a mark nor a string: a word or else a number
        obtain ⟨⟨value, after⟩, hv, h⟩ := Option.map_eq_some_iff.1 h
        cases h
        rcases Option.or_eq_some_iff.1 hv with hv | ⟨_, hv⟩
        · exact length_lt_of_scanWord hv
        · exact length_lt_of_scanNumber hv

/-- The tokens of a text. -/
def tokens? (s : List Char) : Option (List Token) :=
  match s with
  | [] => some []
  | c :: rest =>
    if isSpace c then tokens? rest
    else
      match _h : scanToken (c :: rest) with
      | some (token, after) => (tokens? after).map (token :: ·)
      | none => none
termination_by s.length
decreasing_by
  · simp
  · exact length_lt_of_scanToken _h

/-! ## Values -/

/-- What was read from the front of some tokens, and the tokens after it. -/
structure Parsed (α : Type) (ts : List Token) where
  value : α
  rest : List Token
  shorter : rest.length < ts.length

mutual

/-- The value at the front of some tokens. -/
def value? (ts : List Token) : Option (Parsed Data ts) :=
  match ts with
  | .scalar d :: rest => some ⟨d, rest, Nat.lt_succ_self _⟩
  | .string s :: rest => some ⟨.string s, rest, Nat.lt_succ_self _⟩
  | .beginList :: .endList :: rest =>
    some ⟨.list [], rest, by simp only [List.length_cons]; omega⟩
  | .beginRecord :: .endRecord :: rest =>
    some ⟨.record [], rest, by simp only [List.length_cons]; omega⟩
  | .beginList :: rest =>
    match items? rest with
    | some ⟨items, after, h⟩ =>
      some ⟨.list items, after, by simp only [List.length_cons]; omega⟩
    | none => none
  | .beginRecord :: rest =>
    match fields? rest with
    | some ⟨fields, after, h⟩ =>
      some ⟨.record (Keyed.ofPairs fields), after, by simp only [List.length_cons]; omega⟩
    | none => none
  | _ => none
termination_by (ts.length, 0)

/-- One or more items with the end of their list. -/
def items? (ts : List Token) : Option (Parsed (List Data) ts) :=
  match value? ts with
  | some ⟨item, .endList :: rest, h⟩ =>
    some ⟨[item], rest, by simp only [List.length_cons] at h; omega⟩
  | some ⟨item, .comma :: rest, h⟩ =>
    match items? rest with
    | some ⟨items, after, h'⟩ =>
      some ⟨item :: items, after, by simp only [List.length_cons] at h; omega⟩
    | none => none
  | _ => none
termination_by (ts.length, 1)
decreasing_by
  · exact Prod.Lex.right _ (by omega)
  · simp only [List.length_cons] at h
    exact Prod.Lex.left _ _ (by omega)

/-- One or more fields with the end of their record. -/
def fields? (ts : List Token) : Option (Parsed (List (String × Data)) ts) :=
  match ts with
  | .string name :: .colon :: start =>
    match value? start with
    | some ⟨value, .endRecord :: rest, h⟩ =>
      some ⟨[(name, value)], rest, by simp only [List.length_cons] at h ⊢; omega⟩
    | some ⟨value, .comma :: rest, h⟩ =>
      match fields? rest with
      | some ⟨fields, after, h'⟩ =>
        some ⟨(name, value) :: fields, after, by simp only [List.length_cons] at h ⊢; omega⟩
      | none => none
    | _ => none
  | _ => none
termination_by (ts.length, 1)
decreasing_by
  · exact Prod.Lex.left _ _ (by simp only [List.length_cons]; omega)
  · simp only [List.length_cons] at h
    exact Prod.Lex.left _ _ (by simp only [List.length_cons]; omega)

end

/-- The value of a JSON text. -/
def read? (text : String) : Option Data :=
  match tokens? text.toList with
  | none => none
  | some ts =>
    match value? ts with
    | some ⟨value, [], _⟩ => some value
    | _ => none

end Stencil.Json
