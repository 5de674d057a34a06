/-
Looking at objects: their attributes, their items, and whether two values are equal.

Filters are equal if their parts are, specifiers if they refer to the same streams, and all
other objects only to themselves.
-/
import MediaCommand.Objects.Basic

namespace MediaCommand.Objects

/-! ### Attributes -/

/-- Text keys as values. -/
def optionsValue (options : List (String × Value)) : Value :=
  .dict (options.map fun e => (.text e.1, e.2))

/-- The file as a value. -/
def urlValue (url : Option Argument) : Value := (url.map Argument.toValue).getD .null

/-- The specifiers as a tuple. -/
def specifiersValue (specifiers : List Specifier) : Value :=
  .tuple (specifiers.map fun s => .object (.specifier s.id))

/-- A number that may be missing, as a value. -/
def numberValue (n : Option Nat) : Value := (n.map fun (n : Nat) => Value.int n).getD .null

/-- The attribute of a filter with a name. -/
def filterAttribute? (f : Filter) (name : String) : Option Value :=
  [("name", Value.text f.name), ("options", f.optionsValue),
    ("input_arity", f.inputValue), ("output_arity", f.outputValue)].lookup name

/-- The attribute of a chain with a name. -/
def chainAttribute? (c : Chain) (name : String) : Option Value :=
  [("filters", Value.tuple (c.filters.map fun f => .object (.filter f.id))),
    ("input_node", .object (.filter c.first.id)), ("output_node", .object (.filter c.last.id)),
    ("input_arity", c.first.inputValue), ("output_arity", c.last.outputValue),
    ("inputs", specifiersValue c.inputs), ("position", numberValue c.position)].lookup name

/-- The attribute of an input with a name. -/
def inputAttribute? (i : Input) (name : String) : Option Value :=
  [("url", urlValue i.url), ("options", optionsValue i.options),
    ("label", numberValue i.label)].lookup name

/-- The attribute of an output with a name. -/
def outputAttribute? (out : Output) (name : String) : Option Value :=
  [("url", urlValue out.url), ("options", optionsValue out.options),
    ("maps", specifiersValue out.maps)].lookup name

/-- The attribute of a specifier with a name. -/
def specifierAttribute? (s : Specifier) (name : String) : Option Value :=
  let selection := match s.source with
    | .input _ _ => "track"
    | .pad _ _ => "pad"
  [("anchor", .object s.source.anchor), (selection, s.source.selection)].lookup name

/-- The attribute of a command with a name. -/
def commandAttribute? (c : Command) (name : String) : Option Value :=
  [("options", Value.dict c.options),
    ("executable", (c.executable.map Value.text).getD .null),
    ("inputs", .tuple (c.inputs.map fun id => .object (.input id))),
    ("outputs", .tuple (c.outputs.map fun id => .object (.output id))),
    ("filter_graphs", .tuple (c.graphs.map fun id => .object (.graph id))),
    ("mappings", .tuple (c.mappings.map fun m =>
      .tuple [.object (.output m.output), .int m.track,
        .object (.specifier m.source.id)]))].lookup name

/-- The attribute of an arity with a name. -/
def arityAttribute? (a : Arity) (name : String) : Option Value :=
  [("count", Value.ofCount a), ("unbounded", .bool a.isUnbounded)].lookup name

/-- The attribute of a value with a name. -/
def attributeOf (o : Objects) (v : Value) (name : String) : Except Error Value := do
  let value? ← match v.bare with
    | .object (.filter id) => .ok (filterAttribute? (← o.filter id) name)
    | .object (.chain id) => .ok (chainAttribute? (← o.chain id) name)
    | .object (.input id) => .ok (inputAttribute? (← o.input id) name)
    | .object (.output id) => .ok (outputAttribute? (← o.output id) name)
    | .object (.specifier id) => .ok (specifierAttribute? (← o.specifier id) name)
    | .object (.command id) => .ok (commandAttribute? (← o.command id) name)
    | .arity a => .ok (arityAttribute? a name)
    | _ => .ok none
  match value? with
  | some v => return v
  | none => .error (.fault .noSuchAttribute)

/-! ### Items -/

/-- How many items a value has. -/
def sizeOf (o : Objects) (v : Value) : Except Error Nat := (o.numbered v).map Numbered.size

/-- The item of a value under a number. -/
def itemOf (o : Objects) (v : Value) (number : Int) : Except Error Value := do
  (← o.numbered v).item number

/-! ### Equality -/

/-- What a value is equal to, down to a depth: filters become the tuples of their parts, and
specifiers the first ones that refer to the same streams. -/
def canonicalTo (o : Objects) : Nat → Object → Value
  | 0, x => .object x
  | n + 1, .filter id =>
    match o.filter? id with
    | some f => (Value.tuple f.parts).bindObjects (o.canonicalTo n)
    | none => .object (.filter id)
  | _ + 1, .specifier id =>
    match o.specifier? id with
    | some s =>
      match o.specifiers.find? fun t => t.source == s.source with
      | some t => .object (.specifier t.id)
      | none => .object (.specifier id)
    | none => .object (.specifier id)
  | _ + 1, x => .object x

/-- What a value is equal to, with filters and specifiers seen by their content. -/
def canonical (o : Objects) (v : Value) : Value :=
  v.bindObjects (o.canonicalTo (o.filters.length + 1))

/-- Whether two values are equal. -/
def equal (o : Objects) (a b : Value) : Bool := (o.canonical a).equal (o.canonical b)

/-- Whether a collection that holds one value is found to hold the other. -/
def alike (o : Objects) (a b : Value) : Bool := (o.canonical a).alike (o.canonical b)

/-- Whether a piece stands in a text or in bytes. -/
def standsIn {α : Type} [BEq α] (piece : List α) : List α → Bool
  | [] => piece.isEmpty
  | c :: rest => piece.isPrefixOf (c :: rest) || standsIn piece rest

/-- Whether bytes hold a value: a number that a byte can be, or other bytes. -/
def bytesHold (data : List UInt8) (v : Value) : Except Error Bool :=
  match v.bare with
  | .bytes piece => .ok (standsIn piece data)
  | .bool b => .ok (data.contains (if b then 1 else 0))
  | .int n =>
    if 0 ≤ n && n < 256 then .ok (data.any fun b => (b.toNat : Int) == n)
    else .error (.fault .wrongValue)
  | _ => .error (.fault .wrongType)

/-- Whether a value is an element of another. Graphs look for the very object, texts and bytes for a
piece of themselves, and dictionaries for a key. -/
def holds (o : Objects) (whole v : Value) : Except Error Bool := do
  let items ← o.elements whole
  match whole.bare with
  | .object (.graph _) => return items.any (Value.identical · v)
  | .bytes data => bytesHold data v
  | .text s => return standsIn (← v.asText).toList s.toList
  | .dict _ => if v.isHashable then return items.any (o.alike · v) else .error (.fault .wrongType)
  | _ => return items.any (o.alike · v)

/-- The dictionary of entries, whose keys are told apart by what they are equal to. -/
def dictOf (o : Objects) (entries : List (Value × Value)) : Value :=
  .dict (@Dict.ofList Value Value ⟨o.alike⟩ entries)

/-- How many different values there are among values that may be keys. -/
def distinctCount (o : Objects) (vs : List Value) : Except Error Nat :=
  if Value.allHashable vs then
    .ok (vs.foldl (fun seen v => if seen.any (o.alike · v) then seen else v :: seen) []).length
  else .error (.fault .wrongType)

end MediaCommand.Objects
