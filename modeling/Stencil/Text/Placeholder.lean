/-!
# Placeholders

A wording holds placeholders, names between braces.  Filling a placeholder replaces its
first occurrence.  A dollar sign in the filling is an instruction where one of four marks
follows it: a second dollar sign stands for the sign itself, an ampersand for the replaced
placeholder, a grave accent for the wording before it and an apostrophe for the wording
after it.
-/

namespace Stencil.Placeholder

/-- The text before the first occurrence of a pattern and the text after it. -/
def cut (pattern : List Char) : List Char → Option (List Char × List Char)
  | [] => if pattern.isEmpty then some ([], []) else none
  | c :: rest =>
    if pattern.isPrefixOf (c :: rest) then some ([], (c :: rest).drop pattern.length)
    else (cut pattern rest).map fun (before, after) => (c :: before, after)

/-- What a filling stands for at an occurrence of `pattern` between `before` and `after`. -/
def interpret (pattern before after : List Char) : List Char → List Char
  | '$' :: mark :: rest =>
    if mark = '$' then '$' :: interpret pattern before after rest
    else if mark = '&' then pattern ++ interpret pattern before after rest
    else if mark = '\x60' then before ++ interpret pattern before after rest
    else if mark = '\x27' then after ++ interpret pattern before after rest
    else '$' :: interpret pattern before after (mark :: rest)
  | c :: rest => c :: interpret pattern before after rest
  | [] => []

/-- The placeholder of a name. -/
def mark (name : List Char) : List Char :=
  '\x7b' :: (name ++ ['\x7d'])

/-- A wording with the first placeholder of a name filled. -/
def fill (name filling wording : List Char) : List Char :=
  match cut (mark name) wording with
  | some (before, after) =>
    before ++ interpret (mark name) before after filling ++ after
  | none => wording

end Stencil.Placeholder
