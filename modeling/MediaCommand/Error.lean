/-
Why a call fails.

Each constructor is a cause and holds what the cause is about, as values and identities.  The
wording is put together elsewhere, because it shows objects as they are at that moment.  Causes
that the program only passes on, and has no words of its own for, are the faults.
-/
import MediaCommand.Value.Mark
import MediaCommand.Selector.Basic

namespace MediaCommand

/-- One argument of a command line: a text, or raw bytes where a file was named by them. -/
inductive Argument
  | text (s : String)
  /-- Bytes and the mark of the value that gave them. -/
  | raw (data : List UInt8) (mark : Option Nat)
  deriving DecidableEq, Repr

/-- The argument as a value. -/
def Argument.toValue : Argument → Value
  | .text s => .text s
  | .raw data mark => (Value.bytes data).withMark mark

/-- A failure without words of its own. -/
inductive Fault
  /-- A value of the wrong kind for what is done with it. -/
  | wrongType
  /-- A text that cannot be read. -/
  | wrongValue
  /-- A whole number beyond the floating-point numbers. -/
  | tooLarge
  | noSuchIndex
  | noSuchKey
  | noSuchAttribute
  | noSuchObject
  /-- Objects that hold each other without end. -/
  | tooDeep
  | notAVersion
  | notUtf8
  deriving DecidableEq, Repr

/-- The kind of object that a call takes. -/
inductive Expected
  | filterName
  | filterOptions
  | filterSequence
  | filter
  | filterOrChain
  | chainOrFilter
  | graph
  | specifierSequence
  | specifier
  deriving DecidableEq, Repr

/-- The words for the kind of object that a call takes. -/
def Expected.words : Expected → String
  | filterName => "filter name str"
  | filterOptions => "filter option mapping"
  | filterSequence => "a sequence of Filter objects"
  | filter => "a Filter object"
  | filterOrChain => "a Filter or Chain object"
  | chainOrFilter => "a Chain or Filter object"
  | graph => "a Graph object"
  | specifierSequence => "a sequence of StreamSpecifier objects"
  | specifier => "a StreamSpecifier object"

/-- Why a setting refuses a value. -/
inductive Refusal
  | notBool (got : Value)
  | notPath (got : Value)

/-- Why a call fails. -/
inductive Error
  | fault (f : Fault)
  -- Filters, chains and graphs.
  | invalidObject (expected : Expected) (got : Value)
  | emptyFilterName
  | filterOptionKey
  | padCountType (typeName : String)
  | negativePadCount (count : Int)
  | emptyChain
  | alreadyPlaced (chain : ChainId) (position : Nat)
  | unplaced (chain : ChainId)
  | appendLosesPad (filter : String) (arity : Arity) (pad : Nat)
  | prependLosesInput (filter : String) (arity : Arity) (bound : Nat)
  | tooManyInputs (filter : String) (arity : Arity) (given : Nat)
  /-- The pad that was asked for is taken, or every pad if none was named. -/
  | padTaken (chain : ChainId) (pad : Value)
  | noOutputPad (filter : String)
  | padSelector (got : Value)
  | padOutOfRange (pad : Int) (filter : String) (arity : Arity)
  | duplicateLabel (label : String)
  -- Files and streams.
  | notAnInput (typeName : String)
  | notAnOutput (typeName : String)
  | notAChain (typeName : String)
  | filterHasNoPad
  | selector (why : Selector.Invalid)
  | track (got : Value) (why : Selector.Invalid)
  | urlType (typeName : String)
  | optionsType (typeName : String)
  | optionKey
  -- Commands.
  | labelTaken (url : Option Argument) (label : Nat)
  | inputNotFound (url : Option Argument)
  | chainNotFound (chain : ChainId)
  | unknownSource (got : Value)
  | graphAlreadyAdded
  | outputAlreadyAdded
  | outputNotAdded
  | indexWithSpecifier
  -- Settings.
  | refused (why : Refusal)
  | unknownSetting (key : Value)
  | fixedSetting (key : Value)
  | settingRefused (key : String) (why : Refusal)
  -- The program that is run.
  | programNotFound
  | folderWithoutProgram (folder : String)
  | noProgramAt (path : String)
  | detectionFailed
  | unexpectedReport (line : String)
  | unversionedBuild (build : String)
  | unknownAttribute (name : String)
  -- Running it.
  | argumentsType (typeName : String)
  | overwriteTwice
  | stderrIntoStdout
  | protectedKeyword
  | programFailed (message : String)

end MediaCommand
