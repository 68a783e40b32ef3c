import Stencil.Text.CodePoints

/-!
# Blank characters

The blanks are the horizontal and vertical white space of Unicode: the tabulators, the line
ends, the spaces of every width, and the byte-order mark.
-/

namespace Stencil.Blank

/-- The blank characters, as ranges of code points. -/
def ranges : CodePoints :=
  [(0x9, 0xD), (0x20, 0x20), (0xA0, 0xA0), (0x1680, 0x1680), (0x2000, 0x200A),
   (0x2028, 0x2029), (0x202F, 0x202F), (0x205F, 0x205F), (0x3000, 0x3000), (0xFEFF, 0xFEFF)]

/-- Whether a character is blank. -/
def isBlank (c : Char) : Bool :=
  ranges.holds c

/-- A text without the blanks at its front. -/
def trimLeft (s : List Char) : List Char :=
  s.dropWhile isBlank

/-- A text without the blanks at its end. -/
def trimRight (s : List Char) : List Char :=
  (s.reverse.dropWhile isBlank).reverse

/-- A text without the blanks at either end. -/
def trim (s : List Char) : List Char :=
  trimRight (trimLeft s)

end Stencil.Blank
