/-
The texts of chains, graphs and specifiers.

Nothing is written down before it is asked for: a specifier holds the object that it refers to,
and its text is put together from the state of that object at the moment.  An input is called by
its number in the command, an output pad by the place of its chain in the graph, the name of the
last filter and its index.  Both can be missing, and then there is no text.
-/
import MediaCommand.Objects.Basic
import MediaCommand.Filter.Expression

namespace MediaCommand.Objects

/-- The label of an output pad, given the text of its index. -/
def padLabel (id : ChainId) (c : Chain) (pad : String) : Except Error String :=
  match c.position with
  | some position => .ok ("chain" ++ toString position ++ "_" ++ c.last.name ++ "_" ++ pad)
  | none => .error (.unplaced id)

/-- The labels of the output pads that carry one. A chain without a place has none to give, so its
pads are not even listed. -/
def padLabels (id : ChainId) (c : Chain) : Except Error (List String) :=
  match c.position with
  | none => if c.labeledCount == 0 then .ok [] else .error (.unplaced id)
  | some _ => c.labeledPads.mapM fun pad => padLabel id c (toString pad)

/-- What a specifier is called. -/
def specifierText (o : Objects) (source : Source) : Except Error String :=
  match source with
  | .input id track => do
    let input ← o.input id
    match input.label, track with
    | none, _ => .error (.inputNotFound input.url)
    | some label, none => return toString label
    | some label, some track => return toString label ++ ":" ++ track.text
  | .pad id pad => do
    let c ← o.chain id
    return "[" ++ (← padLabel id c (toString pad)) ++ "]"

/-- What a specifier is called where it feeds a chain. -/
def inputLabel (o : Objects) (source : Source) : Except Error String := do
  return Expression.bracket (← o.specifierText source)

/-- The filters of a chain without any label. -/
def filtersText (t : Texts) (c : Chain) : Except Error String := do
  return ",".intercalate (← c.filters.mapM (Filter.expression t))

/-- A chain with the labels of its inputs in front and those of its outputs behind. -/
def chainText (o : Objects) (t : Texts) (id : ChainId) (c : Chain) : Except Error String := do
  let inputs ← c.inputs.mapM fun s => o.inputLabel s.source
  let filters ← filtersText t c
  let outputs ← padLabels id c
  return String.join inputs ++ filters ++ String.join (outputs.map fun l => "[" ++ l ++ "]")

/-- The labels of all output pads of a graph that carry one. -/
def graphLabels (o : Objects) (g : Graph) : Except Error (List String) := do
  let labels ← g.chains.mapM fun id => do padLabels id (← o.chain id)
  return labels.flatten

/-- A graph: its chains between semicolons. -/
def graphText (o : Objects) (t : Texts) (g : Graph) : Except Error String := do
  let chains ← g.chains.mapM fun id => do o.chainText t id (← o.chain id)
  return ";".intercalate chains

end MediaCommand.Objects
