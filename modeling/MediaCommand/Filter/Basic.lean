/-
Filters and stream specifiers: the objects of a session that never change.

Whoever holds one of them therefore holds its content; the identity beside it only tells equal ones
apart.
-/
import MediaCommand.Error

namespace MediaCommand

/-- A filter: its name, its options in their order, and how many pads it has on either side. -/
structure Filter where
  id : FilterId
  name : String
  options : List (String × Value)
  inputArity : Arity
  outputArity : Arity
  /-- The mark of the dictionary that holds the options. -/
  optionsMark : Nat
  /-- The mark of the value that holds the number of input pads. -/
  inputMark : Nat
  /-- The mark of the value that holds the number of output pads. -/
  outputMark : Nat

/-- The number of input pads as a value. -/
def Filter.inputValue (f : Filter) : Value := .marked f.inputMark (.arity f.inputArity)

/-- The number of output pads as a value. -/
def Filter.outputValue (f : Filter) : Value := .marked f.outputMark (.arity f.outputArity)

/-- The options as a value made anew. -/
def Filter.optionsValue (f : Filter) : Value := .dict (f.options.map fun (k, v) => (.text k, v))

/-- The filter seen as a tuple of its four parts. -/
def Filter.parts (f : Filter) : List Value :=
  [.text f.name, .marked f.optionsMark f.optionsValue, f.inputValue, f.outputValue]

/-- The parts of a filter as they are found under their numbers: the options are made anew. -/
def Filter.numberedParts (f : Filter) : List Value :=
  [.text f.name, f.optionsValue, f.inputValue, f.outputValue]

/-- Which streams of an input are meant. -/
inductive Track
  | index (n : Nat)
  | selector (s : String)
  deriving DecidableEq, Repr

/-- The track as it is written after the colon. -/
def Track.text : Track → String
  | index n => toString n
  | selector s => s

/-- The track as a value. -/
def Track.toValue : Track → Value
  | index n => .int n
  | selector s => .text s

/-- What a specifier refers to: streams of an input, or an output pad of a chain. -/
inductive Source
  | input (input : InputId) (track : Option Track)
  | pad (chain : ChainId) (pad : Nat)
  deriving DecidableEq, Repr

/-- The object that a specifier refers to. -/
def Source.anchor : Source → Object
  | .input id _ => .input id
  | .pad id _ => .chain id

/-- What a specifier selects of that object. -/
def Source.selection : Source → Value
  | .input _ track => (track.map Track.toValue).getD .null
  | .pad _ n => .int n

/-- A reference to a stream. -/
structure Specifier where
  id : SpecifierId
  source : Source
  deriving DecidableEq, Repr

/-- The chain and pad that a specifier refers to, if it refers to a pad. -/
def Specifier.pad? (s : Specifier) : Option (ChainId × Nat) :=
  match s.source with
  | .pad chain pad => some (chain, pad)
  | .input _ _ => none

end MediaCommand
