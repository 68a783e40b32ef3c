import Stencil.Keyed
import Stencil.Number.Basic

/-!
# Data

Data are the values of configuration files and of a failure's context: scalars, lists and
records.

A record may have a base, another record whose fields it falls back on.  The field named
`__proto__` gives it.
-/

namespace Stencil

/-- A value of a configuration file. -/
inductive Data where
  | null
  | boolean (b : Bool)
  | number (x : Number)
  | string (s : String)
  | list (items : List Data)
  | record (fields : List (String × Data))

namespace Data

/-- The name of the field that gives a record its base. -/
def baseName : String := "__proto__"

/-- The fields of a value; a value that is not a record has none. -/
def fields : Data → Keyed Data
  | .record fields => fields
  | _ => []

/-- The fields of a value, the field that gives the base apart. -/
def ownFields (d : Data) : Keyed Data :=
  d.fields.filter fun field => field.1 != baseName

/-- The fields of a value, followed by those of its base. -/
def allFields (d : Data) : Keyed Data :=
  d.ownFields ++ (d.fields.get? baseName).elim [] fields

/-- The finite number that a value is, if it is one. -/
def finiteNumber? : Data → Option Number
  | .number x => if x.isFinite then some x else none
  | _ => none

/-- The truth value that a value is, if it is one. -/
def boolean? : Data → Option Bool
  | .boolean b => some b
  | _ => none

/-- The string that a value is, if it is one. -/
def string? : Data → Option String
  | .string s => some s
  | _ => none

/-- Whether a value is null. -/
def isNull : Data → Bool
  | .null => true
  | _ => false

end Data

end Stencil
