import Stencil.Config.Basic
import Stencil.Keyed
import Stencil.Number.Literal
import Stencil.Text.Blank
import Stencil.Text.SmallLetter

/-!
# Configurations from the environment

Environment variables give settings under names that begin with a common stem.  A limit is
read from the digits at the front of the text; a text that gives no valid value leaves the
setting out.
-/

namespace Stencil

/-- The variables of an environment. -/
abbrev Environment := Keyed String

/-- The integer at the front of a text, after blanks. -/
def leadingInteger? (text : List Char) : Option Number :=
  let (negative, unsigned) := Literal.takeSign (Blank.trimLeft text)
  match Literal.takeDigits unsigned with
  | ([], _) => none
  | (digits, _) => some (Number.ofDecimal negative (Literal.digitsValue digits) 0)

/-- Whether a text spells a word of small letters, in letters of either case. -/
def spellsWord (text word : String) : Bool :=
  SmallLetter.ofChars text.toList == word.toList

/-- The truth value of a text: no text gives none. -/
def truthOf? (text : String) : Option Bool :=
  if text.isEmpty then none
  else some (text == "1" || spellsWord text "true" || spellsWord text "yes")

/-- The stem of the engine's own variables. -/
def defaultStem : String := "NODEPLATE"

/-- The settings that the variables of a stem give. -/
def PartialConfig.ofEnvironment (env : Environment) (stem : String) : PartialConfig where
  maxDepth := (env.get? (stem ++ "_MAX_DEPTH")).bind fun t => leadingInteger? t.toList
  maxCalls := (env.get? (stem ++ "_MAX_CALLS")).bind fun t => leadingInteger? t.toList
  trace := (env.get? (stem ++ "_TRACE")).bind truthOf?
  collisions := (env.get? (stem ++ "_IMPORT_COLLISIONS")).bind CollisionPolicy.ofName?
  level := (env.get? (stem ++ "_LOG_LEVEL")).bind LogLevel.ofName?

/-- The configuration that the variables of a stem give; what they leave out is default. -/
def Config.ofEnvironment (env : Environment) (stem : String) : Config :=
  default.override (.ofEnvironment env stem)

end Stencil
