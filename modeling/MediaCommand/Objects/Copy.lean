/-
Copying a value together with every object that it holds.

The copy is as connected as what it is made from: objects that stand in each other are copied
once, and every reference among them is turned to the copies.  Nothing that the copied objects
do not hold is touched.

Two things never change after they are made, and that limits how they can stand within themselves.
A filter that is reached again through its own options is copied without options.  A specifier
cannot be a key of a dictionary that is reached through it, because keys must be complete.

Which graphs of a command are applied to one output is recorded by their identities, and those stay
with the graphs copied from, so in a copied command every graph is applied to all of it.
-/
import MediaCommand.Objects.Basic

namespace MediaCommand.Objects

/-! ### What an object holds -/

/-- Specifiers as values. -/
def specifierValues (specifiers : List Specifier) : List Value :=
  specifiers.map fun s => .object (.specifier s.id)

/-- What a mapping holds. -/
def mappingValues (m : Mapping) : List Value :=
  [.object (.output m.output), .object (.specifier m.source.id)]

/-- What an object holds, in the order in which it is walked, and what in it serves as a key. -/
structure Content where
  values : List Value := []
  keys : List Value := []

/-- The content of options of a file or a filter, whose keys are texts. -/
def optionContent (options : List (String × Value)) : Content := { values := options.map (·.2) }

/-- What an object holds. -/
def contentOf (o : Objects) : Object → Content
  | .filter id => ((o.filter? id).map fun f => optionContent f.options).getD {}
  | .specifier id =>
    ((o.specifier? id).map fun s => { values := [.object s.source.anchor] }).getD {}
  | .chain id =>
    ((o.chain? id).map fun c =>
      { values := c.filters.map (fun f => .object (.filter f.id)) ++ specifierValues c.inputs ++
          c.mapped
        keys := c.mapped }).getD {}
  | .graph id =>
    ((o.graph? id).map fun g =>
      { values := g.chains.map fun c => .object (.chain c) }).getD {}
  | .input id => ((o.input? id).map fun i => optionContent i.options).getD {}
  | .output id =>
    ((o.output? id).map fun out =>
      { values := (optionContent out.options).values ++ specifierValues out.maps }).getD {}
  | .command id =>
    ((o.command? id).map fun c =>
      { values := c.options.flatMap (fun e => [e.1, e.2]) ++
          c.inputs.map (fun i => .object (.input i)) ++
          c.outputs.map (fun out => .object (.output out)) ++
          c.graphs.map (fun g => .object (.graph g)) ++
          c.attached.map (fun e => .object (.output e.2)) ++ c.mappings.flatMap mappingValues
        keys := c.options.map (·.1) }).getD {}

/-! ### Walking -/

/-- What a walk through a value and everything in it has met. -/
structure Walk where
  /-- The objects met, the latest first. -/
  met : List Object := []
  /-- The marks of the values met. -/
  marks : List Nat := []
  /-- The objects in which the walk stands. -/
  within : List Object := []
  /-- The filters met again among their own options. -/
  hollow : List FilterId := []
  /-- Whether a specifier was needed as a key before the walk through it had ended. -/
  stuck : Bool := false

namespace Walk

/-- Notes an object as met. -/
def meet (w : Walk) (x : Object) : Walk := { w with met := x :: w.met }

/-- Notes a mark as met. -/
def meetMark (w : Walk) (mark : Nat) : Walk := { w with marks := mark :: w.marks }

/-- Steps into an object. -/
def enter (w : Walk) (x : Object) : Walk := { w with within := x :: w.within }

/-- Steps out of the object entered last. -/
def leave (w : Walk) : Walk := { w with within := w.within.tail }

/-- Whether an object is a specifier in which the walk stands. -/
def isUnfinished (w : Walk) : Object → Bool
  | .specifier id => w.within.contains (.specifier id)
  | _ => false

/-- Puts keys in their places, which needs the specifiers among them. -/
def place (w : Walk) (keys : List Value) : Walk :=
  { w with stuck := w.stuck || (Value.itemObjects keys).any w.isUnfinished }

mutual

/-- Walks through a value, given how to walk through an object. What carries a mark is walked
through once; a tuple counts as met when all of it is. -/
def value (visit : Walk → Object → Walk) (w : Walk) : Value → Walk
  | .object x => visit w x
  | .list vs => items visit w vs
  | .tuple vs => items visit w vs
  | .dict es => (entries visit w es).place (es.map (·.1))
  | .marked mark v =>
    if w.marks.contains mark then w
    else
      match v with
      | .tuple vs => (items visit w vs).meetMark mark
      | v => value visit (w.meetMark mark) v
  | _ => w

/-- Walks through items. -/
def items (visit : Walk → Object → Walk) (w : Walk) : List Value → Walk
  | [] => w
  | v :: rest => items visit (value visit w v) rest

/-- Walks through entries. -/
def entries (visit : Walk → Object → Walk) (w : Walk) : List (Value × Value) → Walk
  | [] => w
  | (k, v) :: rest => entries visit (value visit (value visit w k) v) rest

end

end Walk

/-- Walks through an object and everything in it, down to a depth. A filter counts as met when all
of it is, and any other object as soon as it is reached. -/
def walkTo (o : Objects) : Nat → Walk → Object → Walk
  | 0, w, _ => w
  | n + 1, w, x =>
    if w.met.contains x then w
    else
      let content := o.contentOf x
      let through := fun (w : Walk) =>
        ((Walk.items (o.walkTo n) (w.enter x) content.values).place content.keys).leave
      match x with
      | .filter id =>
        if w.within.contains x then { w with hollow := id :: w.hollow } else (through w).meet x
      | _ => through (w.meet x)

/-- The walk through a value. An object stands within any other at most once. -/
def walk (o : Objects) (v : Value) : Walk := Walk.value (o.walkTo (o.count + 1)) {} v

/-! ### Copying -/

/-- The identity of the copy of an object, when the copies of its kind follow the `count`
objects there are. -/
def copiedIndex {k : Kind} (ids : List (Id k)) (count : Nat) (id : Id k) : Id k :=
  match ids.idxOf? id with
  | some i => ⟨count + i⟩
  | none => id

/-- The identities of each kind in a list of objects. -/
structure Members where
  filters : List FilterId
  specifiers : List SpecifierId
  chains : List ChainId
  graphs : List GraphId
  inputs : List InputId
  outputs : List OutputId
  commands : List CommandId
  /-- The filters whose copies have no options. -/
  hollow : List FilterId

/-- The objects of a list, kind by kind. -/
def membersOf (xs : List Object) (hollow : List FilterId) : Members where
  filters := xs.filterMap fun | .filter id => some id | _ => none
  specifiers := xs.filterMap fun | .specifier id => some id | _ => none
  chains := xs.filterMap fun | .chain id => some id | _ => none
  graphs := xs.filterMap fun | .graph id => some id | _ => none
  inputs := xs.filterMap fun | .input id => some id | _ => none
  outputs := xs.filterMap fun | .output id => some id | _ => none
  commands := xs.filterMap fun | .command id => some id | _ => none
  hollow

/-- The copy of an object. -/
def renamed (o : Objects) (m : Members) : Object → Object
  | .filter id => .filter (copiedIndex m.filters o.filters.length id)
  | .specifier id => .specifier (copiedIndex m.specifiers o.specifiers.length id)
  | .chain id => .chain (copiedIndex m.chains o.chains.length id)
  | .graph id => .graph (copiedIndex m.graphs o.graphs.length id)
  | .input id => .input (copiedIndex m.inputs o.inputs.length id)
  | .output id => .output (copiedIndex m.outputs o.outputs.length id)
  | .command id => .command (copiedIndex m.commands o.commands.length id)

/-- The mark of the copy of what carries a mark: copies get as many new marks as there are. -/
def copiedMark (o : Objects) (mark : Nat) : Nat := o.nextMark + mark

/-- A value in which every object is turned to its copy. -/
def copyValue (o : Objects) (m : Members) (v : Value) : Value :=
  (v.bindObjects fun x => .object (o.renamed m x)).remark o.copiedMark

/-- The copy of a file name. -/
def copyUrl (o : Objects) : Option Argument → Option Argument
  | some (.raw data mark) => some (.raw data (mark.map o.copiedMark))
  | url => url

/-- Options in which every object is turned to its copy. -/
def copyOptions (o : Objects) (m : Members) (options : List (String × Value)) :
    List (String × Value) :=
  options.map fun e => (e.1, o.copyValue m e.2)

/-- The copy of a filter. -/
def copyFilter (o : Objects) (m : Members) (f : Filter) : Filter :=
  { f with
    id := copiedIndex m.filters o.filters.length f.id
    options := if m.hollow.contains f.id then [] else o.copyOptions m f.options
    optionsMark := o.nextMark + o.nextMark + f.id.index
    inputMark := o.copiedMark f.inputMark
    outputMark := o.copiedMark f.outputMark }

/-- The copy of what a specifier refers to. -/
def copySource (o : Objects) (m : Members) (s : Source) : Source :=
  match s with
  | .input id track => .input (copiedIndex m.inputs o.inputs.length id) track
  | .pad id pad => .pad (copiedIndex m.chains o.chains.length id) pad

/-- The copy of a specifier. -/
def copySpecifier (o : Objects) (m : Members) (s : Specifier) : Specifier :=
  ⟨copiedIndex m.specifiers o.specifiers.length s.id, o.copySource m s.source⟩

/-- The copy of a chain. -/
def copyChain (o : Objects) (m : Members) (c : Chain) : Chain :=
  { c with
    filters := c.filters.map (o.copyFilter m)
    nonempty := fun h => c.nonempty (List.map_eq_nil_iff.mp h)
    inputs := c.inputs.map (o.copySpecifier m)
    mapped := c.mapped.map (o.copyValue m) }

/-- The copy of a command. -/
def copyCommand (o : Objects) (m : Members) (c : Command) : Command :=
  let outputs := copiedIndex m.outputs o.outputs.length
  { c with
    options := c.options.map fun e => (o.copyValue m e.1, o.copyValue m e.2)
    inputs := c.inputs.map (copiedIndex m.inputs o.inputs.length)
    outputs := c.outputs.map outputs
    graphs := c.graphs.map (copiedIndex m.graphs o.graphs.length)
    attached := c.attached.map fun e => (e.1, outputs e.2)
    mappings := c.mappings.map fun e =>
      { e with output := outputs e.output, source := o.copySpecifier m e.source } }

/-- The copy of an input. -/
def copyInput (o : Objects) (m : Members) (i : Input) : Input :=
  { i with url := o.copyUrl i.url, options := o.copyOptions m i.options }

/-- The copy of an output. -/
def copyOutput (o : Objects) (m : Members) (out : Output) : Output :=
  { out with
    url := o.copyUrl out.url
    options := o.copyOptions m out.options
    maps := out.maps.map (o.copySpecifier m) }

/-- The objects with copies of some of them. -/
def withCopies (o : Objects) (m : Members) : Objects :=
  { filters := o.filters ++ (m.filters.filterMap o.filter?).map (o.copyFilter m)
    specifiers := o.specifiers ++ (m.specifiers.filterMap o.specifier?).map (o.copySpecifier m)
    chains := o.chains ++ (m.chains.filterMap o.chain?).map (o.copyChain m)
    graphs := o.graphs ++ (m.graphs.filterMap o.graph?).map fun g =>
      { g with chains := g.chains.map (copiedIndex m.chains o.chains.length) }
    inputs := o.inputs ++ (m.inputs.filterMap o.input?).map (o.copyInput m)
    outputs := o.outputs ++ (m.outputs.filterMap o.output?).map (o.copyOutput m)
    commands := o.commands ++ (m.commands.filterMap o.command?).map (o.copyCommand m)
    nextMark := o.nextMark + o.nextMark + o.filters.length }

/-- Copies a value and every object that it holds, unless a specifier in it is a key of something
that it holds itself. -/
def copy (o : Objects) (v : Value) : Except Error (Objects × Value) :=
  let w := o.walk v
  if w.stuck then .error (.fault .noSuchAttribute)
  else
    let m := membersOf (w.met.reverse.filter o.has) w.hollow
    .ok (o.withCopies m, o.copyValue m v)

end MediaCommand.Objects
