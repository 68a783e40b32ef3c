import Stencil.Config.Basic
import Stencil.Data.Basic

/-!
# Configurations from records

A record gives a configuration by three sections, `expansion`, `imports` and `logging`.  The
limits may be spelled in either of two ways; the second counts when the first is absent or
null.  A field of the wrong type is left out.
-/

namespace Stencil

namespace PartialConfig

/-- The fields of a section of a record. -/
def sectionOf (fields : Keyed Data) (name : String) : Keyed Data :=
  ((fields.get? name).map Data.allFields).getD []

/-- The value of a field under its first spelling, or under its second one if that is absent
or null. -/
def spelled? (fields : Keyed Data) (first second : String) : Option Data :=
  match fields.get? first with
  | none | some .null => fields.get? second
  | some value => some value

/-- The settings that the fields of a record give. -/
def ofFields (fields : Keyed Data) : PartialConfig :=
  let expansion := sectionOf fields "expansion"
  let imports := sectionOf fields "imports"
  let logging := sectionOf fields "logging"
  { maxDepth := (spelled? expansion "maxDepth" "max_depth").bind Data.finiteNumber?
    maxCalls := (spelled? expansion "maxCalls" "max_calls").bind Data.finiteNumber?
    trace := (expansion.get? "trace").bind Data.boolean?
    collisions :=
      ((imports.get? "collisions").bind Data.string?).bind CollisionPolicy.ofName?
    level := ((logging.get? "level").bind Data.string?).bind LogLevel.ofName? }

end PartialConfig

namespace Config

/-- The configuration that the fields of a record give; what they leave out is default. -/
def ofFields (fields : Keyed Data) : Config :=
  default.override (.ofFields fields)

/-- The configuration that a value gives. -/
def ofData (d : Data) : Config :=
  ofFields d.fields

end Config

end Stencil
