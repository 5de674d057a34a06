/-
Telling what is done: levels, their names, and the logger.

A line is told if its level is at least that of the logger.  A logger starts without a level of its
own and tells warnings and worse then.  Lines go to whoever listens; a console listens as soon as a
level has been asked for once, and from then on there is exactly one.
-/
import MediaCommand.Text.Case

namespace MediaCommand

/-- How grave a line is. -/
inductive Level
  | debug
  | info
  | warning
  deriving DecidableEq, Repr

/-- The name of a level. -/
def Level.name : Level → String
  | debug => "DEBUG"
  | info => "INFO"
  | warning => "WARNING"

/-- The number of a level. -/
def Level.number : Level → Nat
  | debug => 10
  | info => 20
  | warning => 30

/-- A line that was told. -/
structure LogLine where
  level : Level
  text : String
  deriving DecidableEq, Repr

/-- The state of the logger: its own level, zero if it has none, and the level of the console if one
listens. -/
structure Logger where
  level : Nat := 0
  console : Option Nat := none
  deriving DecidableEq, Repr

namespace Logger

/-- The level of a logger that has none of its own. -/
def inheritedLevel : Nat := 30

/-- The number below which lines are not told. -/
def threshold (l : Logger) : Nat := if l.level == 0 then inheritedLevel else l.level

/-- Whether lines of a level are told. -/
def tells (l : Logger) (level : Level) : Bool := l.threshold ≤ level.number

/-- The names of the levels that can be asked for. -/
def levelNames : List (String × Nat) :=
  [("CRITICAL", 50), ("FATAL", 50), ("ERROR", 40), ("WARN", 30), ("WARNING", 30), ("INFO", 20),
    ("DEBUG", 10), ("NOTSET", 0)]

/-- The level with a name in letters of any case. -/
def levelOf? (name : String) : Option Nat :=
  (levelNames.find? fun e => e.1 == Text.plainUpper name).map (·.2)

/-- Gives the logger and the console a level; the console starts to listen if it did not. -/
def setLevel (_ : Logger) (level : Nat) : Logger := { level, console := some level }

end Logger

end MediaCommand
