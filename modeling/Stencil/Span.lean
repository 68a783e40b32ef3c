import Stencil.Number.Basic

/-!
# Spans

A span is a range of positions in a text: an offset and a size.  Every part of a tree
carries the span that it was read from, and problems are reported at spans.

Positions are whole numbers of 53 bits: a computed position beyond them is rounded to the
nearest number.
-/

namespace Stencil

/-- A range of positions. -/
structure Span where
  offset : Int
  size : Int
deriving DecidableEq, Repr, Inhabited

/-- A value with the span that it was read from. -/
structure Spanned (α : Type) where
  inner : α
  span : Span
deriving DecidableEq

namespace Span

/-- The span of a part that was not read from a text. -/
def none : Span := ⟨0, 0⟩

/-- The position after the last one of a span. -/
def stop (s : Span) : Int :=
  Number.roundInt (s.offset + s.size)

/-- The smallest span that covers two. -/
def join (a b : Span) : Span :=
  let offset := min a.offset b.offset
  ⟨offset, Number.roundInt (max a.stop b.stop - offset)⟩

/-- The text of a span: where it begins and where it ends. -/
def text (s : Span) : String :=
  toString s.offset ++ ".." ++ toString s.stop

end Span

end Stencil
