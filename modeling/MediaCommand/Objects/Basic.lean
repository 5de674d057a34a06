/-
The objects of a session and how they hold each other.

Inputs, outputs, chains, graphs and commands change, and several owners may share one, so they
are kept in one place and held by identity.  The identity of an object is its place among its
kind; an object is never removed, so an identity stays good for ever.
-/
import MediaCommand.Chain
import MediaCommand.Value.Numbered

namespace MediaCommand

/-- Chains in parallel. -/
structure Graph where
  chains : List ChainId := []

/-- An input file. -/
structure Input where
  /-- The file; nothing stands for the null device. -/
  url : Option Argument
  options : List (String × Value)
  /-- The place among the inputs of a command. -/
  label : Option Nat := none

/-- An output file. -/
structure Output where
  /-- The file; nothing stands for the null device. -/
  url : Option Argument
  options : List (String × Value)
  /-- The streams mapped to its tracks, in track order. -/
  maps : List Specifier := []

/-- One recorded mapping: the stream on a track of an output. -/
structure Mapping where
  output : OutputId
  track : Nat
  source : Specifier
  deriving DecidableEq, Repr

/-- One invocation: its global options, files, graphs and mappings. -/
structure Command where
  options : List (Value × Value)
  executable : Option String
  inputs : List InputId := []
  outputs : List OutputId := []
  graphs : List GraphId := []
  /-- The graphs that are applied to one output each instead of to the whole command. -/
  attached : List (GraphId × OutputId) := []
  mappings : List Mapping := []

/-- All objects of a session. -/
structure Objects where
  filters : List Filter := []
  specifiers : List Specifier := []
  chains : List Chain := []
  graphs : List Graph := []
  inputs : List Input := []
  outputs : List Output := []
  commands : List Command := []
  /-- The next mark for a value. -/
  nextMark : Nat := Value.firstMark

namespace Objects

/-! ### Looking an object up -/

def filter? (o : Objects) (id : FilterId) : Option Filter := o.filters[id.index]?
def specifier? (o : Objects) (id : SpecifierId) : Option Specifier := o.specifiers[id.index]?
def chain? (o : Objects) (id : ChainId) : Option Chain := o.chains[id.index]?
def graph? (o : Objects) (id : GraphId) : Option Graph := o.graphs[id.index]?
def input? (o : Objects) (id : InputId) : Option Input := o.inputs[id.index]?
def output? (o : Objects) (id : OutputId) : Option Output := o.outputs[id.index]?
def command? (o : Objects) (id : CommandId) : Option Command := o.commands[id.index]?

/-- Whether an object is there. -/
def has (o : Objects) : Object → Bool
  | .filter id => (o.filter? id).isSome
  | .chain id => (o.chain? id).isSome
  | .graph id => (o.graph? id).isSome
  | .input id => (o.input? id).isSome
  | .output id => (o.output? id).isSome
  | .specifier id => (o.specifier? id).isSome
  | .command id => (o.command? id).isSome

/-- The object if it is there. -/
def found {α : Type} : Option α → Except Error α
  | some x => .ok x
  | none => .error (.fault .noSuchObject)

def filter (o : Objects) (id : FilterId) : Except Error Filter := found (o.filter? id)
def specifier (o : Objects) (id : SpecifierId) : Except Error Specifier := found (o.specifier? id)
def chain (o : Objects) (id : ChainId) : Except Error Chain := found (o.chain? id)
def graph (o : Objects) (id : GraphId) : Except Error Graph := found (o.graph? id)
def input (o : Objects) (id : InputId) : Except Error Input := found (o.input? id)
def output (o : Objects) (id : OutputId) : Except Error Output := found (o.output? id)
def command (o : Objects) (id : CommandId) : Except Error Command := found (o.command? id)

/-! ### Adding and changing objects -/

/-- Gives marks to a value that enters the session. -/
def keep (o : Objects) (v : Value) : Objects × Value :=
  let (v, nextMark) := v.markAll o.nextMark
  ({ o with nextMark }, v)

/-- Adds a filter; its identity is given to it here, and a mark to each arity that has none. -/
def addFilter (o : Objects) (name : String) (options : List (String × Value))
    (input output : Arity × Option Nat) : Objects × Filter :=
  let f : Filter :=
    { id := ⟨o.filters.length⟩
      name, options
      inputArity := input.1
      outputArity := output.1
      optionsMark := o.nextMark
      inputMark := input.2.getD (o.nextMark + 1)
      outputMark := output.2.getD (o.nextMark + 2) }
  ({ o with filters := o.filters ++ [f], nextMark := o.nextMark + 3 }, f)

/-- Adds a specifier; its identity is given to it here. -/
def addSpecifier (o : Objects) (source : Source) : Objects × Specifier :=
  let s : Specifier := ⟨⟨o.specifiers.length⟩, source⟩
  ({ o with specifiers := o.specifiers ++ [s] }, s)

def addChain (o : Objects) (c : Chain) : Objects × ChainId :=
  ({ o with chains := o.chains ++ [c] }, ⟨o.chains.length⟩)

def addGraph (o : Objects) (g : Graph) : Objects × GraphId :=
  ({ o with graphs := o.graphs ++ [g] }, ⟨o.graphs.length⟩)

def addInput (o : Objects) (i : Input) : Objects × InputId :=
  ({ o with inputs := o.inputs ++ [i] }, ⟨o.inputs.length⟩)

def addOutput (o : Objects) (out : Output) : Objects × OutputId :=
  ({ o with outputs := o.outputs ++ [out] }, ⟨o.outputs.length⟩)

def addCommand (o : Objects) (c : Command) : Objects × CommandId :=
  ({ o with commands := o.commands ++ [c] }, ⟨o.commands.length⟩)

def setChain (o : Objects) (id : ChainId) (c : Chain) : Objects :=
  { o with chains := o.chains.set id.index c }

def setGraph (o : Objects) (id : GraphId) (g : Graph) : Objects :=
  { o with graphs := o.graphs.set id.index g }

def setInput (o : Objects) (id : InputId) (i : Input) : Objects :=
  { o with inputs := o.inputs.set id.index i }

def setOutput (o : Objects) (id : OutputId) (out : Output) : Objects :=
  { o with outputs := o.outputs.set id.index out }

def setCommand (o : Objects) (id : CommandId) (c : Command) : Objects :=
  { o with commands := o.commands.set id.index c }

/-- Forgets a specifier and the ones made after it. -/
def dropSpecifier (o : Objects) (id : SpecifierId) : Objects :=
  { o with specifiers := o.specifiers.take id.index }

/-- Changes a chain if it is there. -/
def modifyChain (o : Objects) (id : ChainId) (f : Chain → Chain) : Objects :=
  match o.chain? id with
  | some c => o.setChain id (f c)
  | none => o

/-! ### Values seen as objects and sequences -/

/-- How many objects there are. -/
def count (o : Objects) : Nat :=
  o.filters.length + o.specifiers.length + o.chains.length + o.graphs.length + o.inputs.length +
    o.outputs.length + o.commands.length

/-- The sum of numbers. -/
def total (counts : List Nat) : Nat := counts.foldr (· + ·) 0

/-- How many containers there are in what the objects hold. -/
def containerCount (o : Objects) : Nat :=
  let ofOptions := fun (options : List (String × Value)) =>
    Value.itemContainerCount (options.map (·.2)) + 1
  total (o.filters.map fun f => ofOptions f.options) +
    total (o.chains.map fun c => Value.itemContainerCount c.mapped) +
    total (o.inputs.map fun i => ofOptions i.options) +
    total (o.outputs.map fun out => ofOptions out.options) +
    total (o.commands.map fun c => Value.entryContainerCount c.options)

/-- The name of the kind of a value, telling the two kinds of specifiers apart. -/
def typeName (o : Objects) (v : Value) : String :=
  match v with
  | .object (.specifier id) =>
    match (o.specifier? id).map Specifier.source with
    | some (.input _ _) => "InputStreamSpecifier"
    | some (.pad _ _) => "FilterPadSpecifier"
    | none => v.typeName
  | _ => v.typeName

/-- The items of a value that is a sequence but no text. A filter is the sequence of its parts. -/
def items? (o : Objects) (v : Value) : Option (List Value) :=
  match v.bare with
  | .list items => some items
  | .tuple items => some items
  | .bytes data => some (Value.ofBytes data)
  | .arity a => some [Value.ofCount a]
  | .object (.filter id) => (o.filter? id).map Filter.parts
  | _ => none

/-- What a loop over the value meets. -/
def elements? (o : Objects) (v : Value) : Option (List Value) :=
  match v.bare with
  | .text s => some (s.toList.map fun c => .text c.toString)
  | .dict entries => some (entries.map (·.1))
  | .object (.chain id) => (o.chain? id).map fun c => c.filters.map fun f => .object (.filter f.id)
  | .object (.graph id) => (o.graph? id).map fun g => g.chains.map fun c => .object (.chain c)
  | _ => o.items? v

/-- What a loop over the value meets, or the fault that there is nothing to loop over. -/
def elements (o : Objects) (v : Value) : Except Error (List Value) :=
  match o.elements? v with
  | some items => .ok items
  | none => .error (.fault .wrongType)

/-- The value as items under numbers, or the fault that it has none. -/
def numbered (o : Objects) (v : Value) : Except Error Numbered :=
  match v.bare with
  | .dict entries => .ok (.entries entries)
  | .object (.filter id) => (o.filter id).map fun f => .items f.numberedParts
  | _ => (o.elements v).map .items

/-- A sequence without its first item. What is cut out of a filter or an arity is a plain tuple. -/
def withoutFirst (o : Objects) (v : Value) : Except Error Value :=
  match v.bare with
  | .text s => .ok (.text (String.ofList s.toList.tail))
  | .bytes data => .ok (.bytes data.tail)
  | .tuple items => .ok (.tuple items.tail)
  | .arity _ => .ok (.tuple [])
  | .dict _ => .error (.fault .wrongType)
  | .object (.filter _) => (o.elements v).map fun items => .tuple items.tail
  | _ => (o.elements v).map fun items => .list items.tail

/-- Whether the value counts as true. -/
def truth (o : Objects) (v : Value) : Bool :=
  match v.bare with
  | .null => false
  | .bool b => b
  | .int n => n != 0
  | .text s => s != ""
  | .float x => !x.isZero
  | .list items => !items.isEmpty
  | .tuple items => !items.isEmpty
  | .dict entries => !entries.isEmpty
  | .bytes data => !data.isEmpty
  | .object (.graph id) => match o.graph? id with
    | some g => !g.chains.isEmpty
    | none => true
  | _ => true

end Objects

end MediaCommand
