/-!
# Logging

Stages of the engine write lines to channels.  A console shows the lines of the channels
that its level admits, each after a tag.
-/

namespace Stencil

/-- The channels of a log; `log` carries the finest detail. -/
inductive Channel where
  | log
  | info
  | warn
  | error
deriving DecidableEq, Repr

namespace Channel

/-- Every channel, the finest detail first. -/
def all : List Channel :=
  [.log, .info, .warn, .error]

/-- The name of a channel. -/
def name : Channel → String
  | .log => "log"
  | .info => "info"
  | .warn => "warn"
  | .error => "error"

/-- The channel of a name. -/
def ofName? (name : String) : Option Channel :=
  all.find? fun c => c.name == name

end Channel

/-- How much a console shows. -/
inductive LogLevel where
  | silent
  | error
  | warn
  | info
  | debug
deriving DecidableEq, Repr

namespace LogLevel

/-- Every level, from the quietest on. -/
def all : List LogLevel :=
  [.silent, .error, .warn, .info, .debug]

/-- The name of a level. -/
def name : LogLevel → String
  | .silent => "silent"
  | .error => "error"
  | .warn => "warn"
  | .info => "info"
  | .debug => "debug"

/-- The level of a name. -/
def ofName? (name : String) : Option LogLevel :=
  all.find? fun l => l.name == name

/-- The place of a level among the levels. -/
def rank : LogLevel → Nat
  | .silent => 0
  | .error => 1
  | .warn => 2
  | .info => 3
  | .debug => 4

/-- The least level that admits a channel. -/
def ofChannel : Channel → LogLevel
  | .log => .debug
  | .info => .info
  | .warn => .warn
  | .error => .error

/-- Whether a level admits a channel. -/
def admits (l : LogLevel) (c : Channel) : Bool :=
  (ofChannel c).rank ≤ l.rank

end LogLevel

/-- One line of a log. -/
structure LogLine where
  channel : Channel
  text : String
deriving DecidableEq

namespace LogLine

/-- The tag of the engine's own console. -/
def defaultTag : String := "[nodeplate]"

/-- What a console of a level shows of some lines. -/
def console (level : LogLevel) (tag : String) (lines : List LogLine) : List LogLine :=
  (lines.filter fun line => level.admits line.channel).map fun line =>
    { line with text := tag ++ " " ++ line.text }

end LogLine

end Stencil
