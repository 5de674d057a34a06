/-
Making filters, chains, graphs and files from the values that callers give.

Every maker checks the kinds of its values first and says what it expected.  A graph takes its
chains one after the other, and a chain that it has taken stays taken even if a later one is
refused: the place in a graph is given once and never changes.
-/
import MediaCommand.Objects.Outcome
import MediaCommand.Text.Blank

namespace MediaCommand

namespace Objects

/-! ### Filters -/

/-- The arity of a count that is not negative. -/
def fixedArity (o : Objects) (v : Value) : Except Error Arity :=
  match v with
  | .int n => if n < 0 then .error (.negativePadCount n) else .ok (.fixed n)
  | _ => .error (.padCountType (o.typeName v))

/-- The mark of the one value for the open arity that the letter `N` stands for. -/
def openMark : Nat := 0

/-- The arity that a value gives and its mark, if it is not made anew: an arity as it is, the letter
`N`, or a count that is not negative. -/
def arityOf (o : Objects) (v : Value) : Except Error (Arity × Option Nat) :=
  match v.bare with
  | .arity a => .ok (a, v.mark?)
  | .text "N" => .ok (.unbounded, some openMark)
  | _ => (o.fixedArity v).map fun a => (a, none)

/-- The entries of a dictionary all of whose keys are texts. -/
def textEntries? : List (Value × Value) → Option (List (String × Value))
  | [] => some []
  | (.text k, v) :: rest => (textEntries? rest).map ((k, v) :: ·)
  | _ => none

/-- The options that a value gives to a filter; none is no options. -/
def filterOptions (v : Value) : Except Error (List (String × Value)) :=
  match v.bare with
  | .null => .ok []
  | .dict entries =>
    match textEntries? entries with
    | some options => .ok options
    | none => .error .filterOptionKey
  | _ => .error (.invalidObject .filterOptions v)

/-- Makes a filter. Given a filter for its name, it is that filter. -/
def newFilter (o : Objects) (name options input output : Value) :
    Except Error (Objects × FilterId) :=
  match name with
  | .object (.filter id) => .ok (o, id)
  | .text s => do
    let s := Text.trim s
    if s.isEmpty then throw .emptyFilterName
    let options ← filterOptions options
    let input ← o.arityOf input
    let output ← o.arityOf output
    let (o, f) := o.addFilter s options input output
    return (o, f.id)
  | _ => .error (.invalidObject .filterName name)

/-! ### Chains -/

/-- The filters that values name. -/
def filtersOf (o : Objects) : List Value → Except Error (List Filter)
  | [] => .ok []
  | .object (.filter id) :: rest => do
    let f ← o.filter id
    return f :: (← o.filtersOf rest)
  | v :: _ => .error (.invalidObject .filter v)

/-- Makes a chain of filters. -/
def chainOf (o : Objects) (fs : List Filter) : Except Error (Objects × ChainId) :=
  if h : fs = [] then .error .emptyChain
  else .ok (o.addChain { filters := fs, nonempty := h })

/-- Makes a chain from a filter or a sequence of filters. -/
def newChain (o : Objects) (filters : Value) : Except Error (Objects × ChainId) :=
  match filters.bare with
  | .object (.filter id) => do o.chainOf [← o.filter id]
  | .bytes _ => .error (.invalidObject .filterSequence filters)
  | _ =>
    match o.items? filters with
    | none => .error (.invalidObject .filterSequence filters)
    | some items =>
      if items.isEmpty then .error .emptyChain else do o.chainOf (← o.filtersOf items)

/-- A chain as it is, or a new chain of the one filter. -/
def wrap (o : Objects) (expected : Expected) (v : Value) : Except Error (Objects × ChainId) :=
  match v with
  | .object (.filter id) => do o.chainOf [← o.filter id]
  | .object (.chain id) => .ok (o, id)
  | _ => .error (.invalidObject expected v)

/-! ### Graphs -/

/-- Gives a chain its place in a graph. -/
def place (o : Objects) (id : ChainId) (position : Nat) : Except Error Objects := do
  let c ← o.chain id
  match c.position with
  | some p => .error (.alreadyPlaced id p)
  | none => return o.setChain id { c with position := some position }

/-- Adds a chain, or a filter as a chain of its own, to the chains taken so far. -/
def takeChain (o : Objects) (taken : List ChainId) (v : Value) :
    Except Error (Objects × ChainId) := do
  let (o, id) ← o.wrap .chainOrFilter v
  return (← o.place id taken.length, id)

/-- Adds a chain, or a filter as a chain of its own, to a graph. -/
def appendToGraph (o : Objects) (graph : GraphId) (v : Value) :
    Except Error (Objects × ChainId) := do
  let g ← o.graph graph
  let (o, id) ← o.takeChain g.chains v
  return (o.setGraph graph { g with chains := g.chains ++ [id] }, id)

/-- Adds chains to a graph one after the other, up to the first that is refused. -/
def extendGraph (o : Objects) (graph : GraphId) : List Value → Outcome Unit
  | [] => { objects := o, result := .ok () }
  | v :: rest =>
    match o.appendToGraph graph v with
    | .ok (o, _) => o.extendGraph graph rest
    | .error e => { objects := o, result := .error ⟨e, o⟩ }

/-- Takes chains one after the other for a graph still to be made. -/
def takeChains (o : Objects) (taken : List ChainId) : List Value → Outcome (List ChainId)
  | [] => { objects := o, result := .ok taken }
  | v :: rest =>
    match o.takeChain taken v with
    | .ok (o, id) => o.takeChains (taken ++ [id]) rest
    | .error e => { objects := o, result := .error ⟨e, o⟩ }

/-- The chains that a value gives to a new graph. -/
def chainsGiven (o : Objects) (v : Value) : Except Error (List Value) :=
  match v with
  | .null => .ok []
  | .object (.filter _) => .ok [v]
  | .object (.chain _) => .ok [v]
  | _ => o.elements v

/-- Makes a graph. The chains that it took before one was refused keep their places. -/
def newGraph (o : Objects) (chains : Value) : Outcome GraphId :=
  match o.chainsGiven chains with
  | .error e => { objects := o, result := .error ⟨e, o⟩ }
  | .ok items =>
    let r := o.takeChains [] items
    match r.result with
    | .error e => { objects := r.objects, result := .error e }
    | .ok taken =>
      let (o, id) := r.objects.addGraph { chains := taken }
      { objects := o, result := .ok id }

/-! ### Files -/

/-- The file that a value names; none is the null device. -/
def urlOf (o : Objects) (v : Value) : Except Error (Option Argument) :=
  match v.bare with
  | .null => .ok none
  | .text s => .ok (some (.text s))
  | .bytes data => .ok (some (.raw data v.mark?))
  | .path p => .ok (some (.text p))
  | _ => .error (.urlType (o.typeName v))

/-- The options that a value gives to a file; none is no options. -/
def fileOptions (o : Objects) (v : Value) : Except Error (List (String × Value)) :=
  match v.bare with
  | .null => .ok []
  | .dict entries =>
    match textEntries? entries with
    | some options => .ok options
    | none => .error .optionKey
  | _ => .error (.optionsType (o.typeName v))

/-- Makes an input. -/
def newInput (o : Objects) (url options : Value) : Except Error (Objects × InputId) := do
  let url ← o.urlOf url
  let options ← o.fileOptions options
  return o.addInput { url, options }

/-- Makes an output. -/
def newOutput (o : Objects) (url options : Value) : Except Error (Objects × OutputId) := do
  let url ← o.urlOf url
  let options ← o.fileOptions options
  return o.addOutput { url, options }

/-- Sets options of an input. -/
def addInputOptions (o : Objects) (id : InputId) (options : Value) : Except Error Objects := do
  let i ← o.input id
  let more ← o.fileOptions options
  return o.setInput id { i with options := Dict.update i.options more }

/-- Sets options of an output. -/
def addOutputOptions (o : Objects) (id : OutputId) (options : Value) : Except Error Objects := do
  let out ← o.output id
  let more ← o.fileOptions options
  return o.setOutput id { out with options := Dict.update out.options more }

/-- Makes a command. What does not count as true gives no options. -/
def newCommand (o : Objects) (options : Value) (executable : Option String) :
    Except Error (Objects × CommandId) :=
  if !o.truth options then .ok (o.addCommand { options := [], executable })
  else
    match options.bare with
    | .dict entries => .ok (o.addCommand { options := entries, executable })
    | _ => .error (.fault .wrongType)

end Objects

end MediaCommand
