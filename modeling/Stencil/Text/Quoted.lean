/-!
# Quoted text

A quoted text stands between double quotes.  Inside, a double quote and a backslash are
escaped by a backslash, the control characters below the blank by their short escape or by
their code in four hexadecimal digits, and every other character stands for itself.
-/

namespace Stencil.Quoted

/-- The quotation mark around a quoted text. -/
def quote : Char := '\x22'

/-- The mark of an escape. -/
def backslash : Char := '\\'

/-- The letter of the short escape of a character, if it has one. -/
def shortEscape? (c : Char) : Option Char :=
  if c = quote then some quote
  else if c = backslash then some backslash
  else if c = '\x08' then some 'b'
  else if c = '\x0c' then some 'f'
  else if c = '\n' then some 'n'
  else if c = '\r' then some 'r'
  else if c = '\t' then some 't'
  else none

/-- The written form of one character. -/
def escape (c : Char) : List Char :=
  match shortEscape? c with
  | some letter => [backslash, letter]
  | none =>
    if c.toNat < 32 then
      [backslash, 'u', '0', '0', Nat.digitChar (c.toNat / 16), Nat.digitChar (c.toNat % 16)]
    else [c]

/-- The written form of a text, with its quotation marks. -/
def encode (s : List Char) : List Char :=
  quote :: (s.flatMap escape ++ [quote])

/-- The written form of a string. -/
def text (s : String) : String :=
  String.ofList (encode s.toList)

end Stencil.Quoted
