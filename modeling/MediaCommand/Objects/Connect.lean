/-
Connecting streams: referring to an output pad, referring to streams of an input, feeding
chains, and adding filters at either end of a chain that is connected already.

A pad can be referred to any number of times but feeds one consumer only.  Feeding a chain takes
the pads that are fed; marking a pad takes it for an output.  Filters added at the end must
leave every pad that is referred to, and filters added in front must leave room for every input
that is bound.
-/
import MediaCommand.Objects.Build
import MediaCommand.Objects.Inspect

namespace MediaCommand.Objects

/-! ### Referring to streams -/

/-- Makes a specifier for an output pad that is known to exist. -/
def referTo (o : Objects) (chain : ChainId) (pad : Nat) : Objects × Specifier :=
  (o.modifyChain chain (·.addReference pad)).addSpecifier (.pad chain pad)

/-- Makes a specifier for the output pad that a value selects. -/
def outputPad (o : Objects) (chain : ChainId) (selector : Value) :
    Except Error (Objects × Specifier) := do
  let c ← o.chain chain
  let pad ← c.resolvePad chain selector
  return o.referTo chain pad

/-- Makes a specifier for an output pad of the chain that a value names. -/
def fromFilterOutput (o : Objects) (chain selector : Value) : Except Error (Objects × Specifier) :=
  match chain with
  | .object (.chain id) => o.outputPad id selector
  | .object (.filter _) => .error .filterHasNoPad
  | _ => .error (.notAChain (o.typeName chain))

/-- The fields of the selector that a value gives. -/
def selectorFields (o : Objects) (v : Value) : Except Selector.Invalid (List Selector.Field) :=
  match v with
  | .text s => Selector.parse s
  | .int n => if n < 0 then .error .negativeIndex else .ok [.index n.toNat]
  | _ => .error (.wrongType (o.typeName v))

/-- The track that a value gives. -/
def trackOf (o : Objects) (v : Value) : Except Error (Option Track) :=
  match v with
  | .null => .ok none
  | _ =>
    match o.selectorFields v with
    | .error why => .error (.track v why)
    | .ok _ =>
      match v with
      | .int n => .ok (some (.index n.toNat))
      | .text s => .ok (some (.selector s))
      | _ => .ok none

/-- Makes a specifier for streams of an input. -/
def inputStream (o : Objects) (input : InputId) (track : Value) :
    Except Error (Objects × Specifier) := do
  let _ ← o.input input
  let track ← o.trackOf track
  return o.addSpecifier (.input input track)

/-- Makes a specifier for streams of the input that a value names. -/
def fromInput (o : Objects) (input track : Value) : Except Error (Objects × Specifier) :=
  match input with
  | .object (.input id) => o.inputStream id track
  | _ => .error (.notAnInput (o.typeName input))

/-! ### Taking output pads -/

/-- Whether the pad that a value names is mapped to an output. -/
def isMarked (o : Objects) (c : Chain) (pad : Value) : Bool := c.mapped.any (o.alike · pad)

/-- Whether the pad that a value names feeds another chain. -/
def isFed (c : Chain) (pad : Value) : Bool := c.bound.any fun (p : Nat) => pad.equal (.int p)

/-- Marks the output pad that a value names as mapped to an output. -/
def markMapped (o : Objects) (chain : ChainId) (pad : Value) : Except Error Objects := do
  let c ← o.chain chain
  if !pad.isHashable then .error (.fault .wrongType)
  else if o.isMarked c pad || isFed c pad then .error (.padTaken chain pad)
  else return o.setChain chain (c.addMark pad)

/-! ### Feeding a chain -/

/-- The specifiers that values name. -/
def specifiersOf (o : Objects) : List Value → Except Error (List Specifier)
  | [] => .ok []
  | .object (.specifier id) :: rest => do
    let s ← o.specifier id
    return s :: (← o.specifiersOf rest)
  | v :: _ => .error (.invalidObject .specifier v)

/-- Refuses the first specifier whose pad is taken, or is given more than once in the list. -/
def checkPadsFree (o : Objects) (all : List Specifier) : List Specifier → Except Error Unit
  | [] => .ok ()
  | s :: rest =>
    match s.pad? with
    | none => o.checkPadsFree all rest
    | some (id, pad) => do
      let c ← o.chain id
      if c.isConsumed pad || 1 < (all.filterMap Specifier.pad?).count (id, pad) then
        .error (.padTaken id (.int pad))
      else o.checkPadsFree all rest

/-- The items of a value that gives streams. A text counts as the sequence of its characters. -/
def inputItems (o : Objects) (inputs : Value) : Except Error (List Value) :=
  match inputs with
  | .text s => .ok (s.toList.map fun ch => .text ch.toString)
  | _ =>
    match o.items? inputs with
    | some items => .ok items
    | none => .error (.invalidObject .specifierSequence inputs)

/-- The streams that a value names, if they can all be bound to the next inputs of the chain. -/
def validateInputs (o : Objects) (chain : ChainId) (inputs : Value) :
    Except Error (List Specifier) := do
  let c ← o.chain chain
  let specifiers ← o.specifiersOf (← o.inputItems inputs)
  o.checkPadsFree specifiers specifiers
  let given := c.inputs.length + specifiers.length
  if c.inputArity.accepts given then .ok specifiers
  else .error (.tooManyInputs c.first.name c.inputArity given)

/-- Records that the pad of a specifier feeds a chain. -/
def bindPad (o : Objects) (s : Specifier) : Objects :=
  match s.pad? with
  | some (id, pad) => o.modifyChain id (·.addBound pad)
  | none => o

/-- Tells if a chain has fewer bound inputs than its first filter takes. -/
def underconnected (o : Objects) (chain : ChainId) : List Event :=
  match o.chain? chain with
  | none => []
  | some c =>
    match c.inputArity with
    | .unbounded => []
    | .fixed n => if c.inputs.length < n then [.underconnected chain n c.inputs.length] else []

/-- Binds streams to the next inputs of a chain: takes the pads among them first, then enters
them. -/
def bindInputs (o : Objects) (chain : ChainId) (specifiers : List Specifier) : Objects :=
  (specifiers.foldl bindPad o).modifyChain chain fun c =>
    { c with inputs := c.inputs ++ specifiers }

/-- Binds the streams that a value names to the next inputs of a chain. -/
def addInputs (o : Objects) (chain : ChainId) (inputs : Value) : Outcome Unit :=
  match o.validateInputs chain inputs with
  | .error e => { objects := o, result := .error ⟨e, o⟩ }
  | .ok specifiers =>
    let o := o.bindInputs chain specifiers
    { objects := o, events := o.underconnected chain, result := .ok () }

/-! ### Adding filters -/

/-- The greatest pad referred to that an arity lacks. -/
def lostPad? (references : List Nat) (arity : Arity) : Option Nat :=
  (references.filter fun (pad : Nat) => !arity.hasPad pad).max?

/-- Adds filters at the end of a chain. -/
def appendNodes (o : Objects) (chain : ChainId) (nodes : List Value) : Except Error Objects := do
  let c ← o.chain chain
  let fs ← o.filtersOf nodes
  match fs.getLast? with
  | none => return o
  | some f =>
    match lostPad? c.references f.outputArity with
    | some pad => .error (.appendLosesPad f.name f.outputArity pad)
    | none => return o.setChain chain (c.append fs)

/-- Adds filters in front of a chain. -/
def prependNodes (o : Objects) (chain : ChainId) (nodes : List Value) : Outcome Unit :=
  let checked : Except Error (Option Chain) := do
    let c ← o.chain chain
    let fs ← o.filtersOf nodes
    match fs.head? with
    | none => return none
    | some f =>
      if f.inputArity.accepts c.inputs.length then return some (c.prepend fs)
      else .error (.prependLosesInput f.name f.inputArity c.inputs.length)
  match checked with
  | .error e => { objects := o, result := .error ⟨e, o⟩ }
  | .ok none => { objects := o, result := .ok () }
  | .ok (some c) =>
    let o := o.setChain chain c
    { objects := o, events := o.underconnected chain, result := .ok () }

end MediaCommand.Objects
