/-
Reading options off a list of arguments.

An option is an argument without its first character, and the argument after it is its value
unless that begins with a dash.  An option without a value is a flag.  Values of an option that
comes again are collected; a flag that comes again is still a flag and makes a flag of what came
before, but a flag that comes again with a value is refused.

An argument that names an option may be any sequence; only its values have to be texts.
-/
import MediaCommand.Objects.Inspect
import MediaCommand.Shell.Words
import MediaCommand.Value.Numbered

namespace MediaCommand

/-- What an option was given. -/
inductive Given
  | flag
  | one (value : String)
  | several (values : List String)
  deriving DecidableEq, Repr

/-- What an option was given, as a value. -/
def Given.toValue : Given → Value
  | flag => .null
  | one value => .text value
  | several values => .list (values.map .text)

/-- What an option was given with one more value, unless it is a flag. -/
def Given.add? (value : String) : Option Given → Option Given
  | none => some (.one value)
  | some (.one v) => some (.several [v, value])
  | some (.several vs) => some (.several (vs ++ [value]))
  | some .flag => none

/-- Options and what they were given, in the order in which they first come. -/
abbrev GivenOptions := List (Value × Given)

namespace Options

/-- Whether an argument is an option and no value. -/
def isOption (arg : String) : Bool := arg.toList.head? == some '-'

/-- Sets what an option was given; its key may be written in any way that is equal to it. -/
def put (o : Objects) (found : GivenOptions) (key : Value) (given : Given) : GivenOptions :=
  @Dict.put Value Given ⟨o.alike⟩ found key given

/-- What an option was given so far. -/
def get? (o : Objects) (found : GivenOptions) (key : Value) : Option Given :=
  @Dict.get? Value Given ⟨o.alike⟩ found key

/-- Enters what an option was given. -/
def enter (o : Objects) (found : GivenOptions) (key : Value) (given : Given) :
    Except Error GivenOptions :=
  if key.isHashable then .ok (put o found key given) else .error (.fault .wrongType)

/-- Enters one more value of an option. -/
def enterValue (o : Objects) (found : GivenOptions) (key : Value) (value : String) :
    Except Error GivenOptions :=
  if key.isHashable then
    match Given.add? value (get? o found key) with
    | some given => .ok (put o found key given)
    | none => .error (.fault .noSuchAttribute)
  else .error (.fault .wrongType)

/-- The options in arguments, after those read so far. -/
def readFrom (o : Objects) (found : GivenOptions) :
    List (Except Error Value) → Except Error GivenOptions
  | [] => .ok found
  | [arg] => do enter o found (← o.withoutFirst (← arg)) .flag
  | arg :: next :: rest => do
    let key ← o.withoutFirst (← arg)
    let value ← (← next).asked
    if isOption value then readFrom o (← enter o found key .flag) (next :: rest)
    else readFrom o (← enterValue o found key value) rest

/-- The options in arguments. -/
def read (o : Objects) (args : Numbered) : Except Error GivenOptions := readFrom o [] args.all

/-- Options as a value. -/
def toValue (found : GivenOptions) : Value := .dict (found.map fun e => (e.1, e.2.toValue))

end Options

end MediaCommand
