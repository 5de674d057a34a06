/-
Adding files and graphs to a command, and mapping streams to the tracks of its outputs.

A mapping source is a specifier, an input, or a chain, alone or with an index.  It must belong
to the command already.  Resolving it takes the output pad that it means and may make a new
specifier; a list of sources is resolved from front to back before any of them is recorded.  If
one is refused, the pads taken for the ones before it are released in reverse order, together
with the specifiers made for them.
-/
import MediaCommand.Objects.Connect
import MediaCommand.Objects.Text

namespace MediaCommand.Objects

/-! ### What belongs to a command -/

/-- Refuses an input that is not one of the command. -/
def checkInput (o : Objects) (c : Command) (id : InputId) : Except Error Unit := do
  if c.inputs.contains id then return ()
  let i ← o.input id
  .error (.inputNotFound i.url)

/-- Whether a chain stands in one of the graphs. -/
def chainInGraphs (o : Objects) (graphs : List GraphId) (id : ChainId) : Bool :=
  graphs.any fun g => match o.graph? g with
    | some g => g.chains.contains id
    | none => false

/-- Refuses a chain that stands in none of the graphs. -/
def checkChain (o : Objects) (graphs : List GraphId) (id : ChainId) : Except Error Unit :=
  if o.chainInGraphs graphs id then .ok () else .error (.chainNotFound id)

/-- Refuses a bound input of a chain that comes neither from an input of the command nor from
one of the known graphs. -/
def checkBinding (o : Objects) (c : Command) (known : List GraphId) (s : Specifier) :
    Except Error Unit :=
  match s.source with
  | .input id _ => o.checkInput c id
  | .pad id _ => o.checkChain known id

/-- Refuses graphs with a bound input that comes from nowhere. -/
def checkBindings (o : Objects) (c : Command) (graphs known : List GraphId) : Except Error Unit :=
  graphs.forM fun g => do
    (← o.graph g).chains.forM fun id => do
      (← o.chain id).inputs.forM (o.checkBinding c known)

/-! ### Adding inputs and graphs -/

/-- Adds an input to a command and numbers it. -/
def commandAddInput (o : Objects) (command : CommandId) (input : Value) :
    Except Error (Objects × Nat) := do
  let c ← o.command command
  match input with
  | .object (.input id) =>
    let i ← o.input id
    match i.label with
    | some label => .error (.labelTaken i.url label)
    | none =>
      let label := c.inputs.length
      let o := o.setInput id { i with label := some label }
      return (o.setCommand command { c with inputs := c.inputs ++ [id] }, label)
  | _ => .error (.notAnInput (o.typeName input))

/-- The output that a value names for a graph; none is the whole command. -/
def graphTarget (o : Objects) (v : Value) : Except Error (Option OutputId) :=
  match v with
  | .null => .ok none
  | .object (.output id) => .ok (some id)
  | _ => .error (.notAnOutput (o.typeName v))

/-- Adds a graph to a command, for all of it or for one output. -/
def commandAddGraph (o : Objects) (command : CommandId) (graph onOutput : Value) :
    Except Error (Objects × GraphId) := do
  let c ← o.command command
  match graph with
  | .object (.graph id) =>
    if c.graphs.contains id then throw .graphAlreadyAdded
    let target ← o.graphTarget onOutput
    o.checkBindings c [id] (c.graphs ++ [id])
    match target with
    | none => return (o.setCommand command { c with graphs := c.graphs ++ [id] }, id)
    | some out =>
      let o ← o.addOutputOptions out (.dict [(.text "filter", graph)])
      return (o.setCommand command
        { c with graphs := c.graphs ++ [id], attached := c.attached ++ [(id, out)] }, id)
  | _ => .error (.invalidObject .graph graph)

/-! ### Resolving mapping sources -/

/-- A resolved mapping source, and whether its specifier was made for it. -/
structure Resolved where
  source : Specifier
  created : Bool

/-- Resolves a mapping source and takes the output pad that it means. -/
def resolveSource (o : Objects) (c : Command) (source index : Value) :
    Except Error (Objects × Resolved) :=
  match source with
  | .object (.specifier id) => do
    match index with
    | .null =>
      let s ← o.specifier id
      match s.source with
      | .input input _ =>
        o.checkInput c input
        return (o, ⟨s, false⟩)
      | .pad chain pad =>
        o.checkChain c.graphs chain
        return (← o.markMapped chain (.int pad), ⟨s, false⟩)
    | _ => .error .indexWithSpecifier
  | .object (.input id) => do
    o.checkInput c id
    let (o, s) ← o.inputStream id index
    return (o, ⟨s, true⟩)
  | .object (.chain id) => do
    o.checkChain c.graphs id
    let chain ← o.chain id
    let pad ← chain.resolvePad id index
    let o ← o.markMapped id (.int pad)
    let (o, s) := o.referTo id pad
    return (o, ⟨s, true⟩)
  | _ => .error (.unknownSource source)

/-- The source and the index of an entry of a list of mappings. -/
def splitEntry (entry : Value) : Except Error (Value × Value) :=
  match entry.bare with
  | .object (.specifier _) => .ok (entry, .null)
  | .object (.input _) => .ok (entry, .null)
  | .object (.chain _) => .ok (entry, .null)
  | .object (.filter _) => .ok (entry, .null)
  | .tuple [source] => .ok (source, .null)
  | .tuple [source, index] => .ok (source, index)
  | .arity a => .ok (Value.ofCount a, .null)
  | _ => .error (.unknownSource entry)

/-- Takes back that the pad of a mapping source is mapped. -/
def releasePad (o : Objects) (r : Resolved) : Objects :=
  match r.source.pad? with
  | none => o
  | some (chain, pad) => o.modifyChain chain (·.removeMapped pad)

/-- Forgets the specifier that was made for a mapping source. -/
def forget (o : Objects) (r : Resolved) : Objects :=
  match r.source.pad? with
  | none => o.dropSpecifier r.source.id
  | some (chain, pad) =>
    (o.modifyChain chain (·.removeReference pad)).dropSpecifier r.source.id

/-- Releases the pad taken for a mapping source, and the specifier if it was made for it. -/
def release (o : Objects) (r : Resolved) : Objects :=
  let o := o.releasePad r
  if r.created then o.forget r else o

/-- Resolves an entry of a list of mappings. -/
def resolveEntry (o : Objects) (c : Command) (entry : Value) :
    Except Error (Objects × Resolved) := do
  let (source, index) ← splitEntry entry
  o.resolveSource c source index

/-- Resolves entries from front to back, given the ones resolved so far, the latest first. -/
def resolveEntries (o : Objects) (c : Command) (done : List Resolved) :
    List Value → Outcome (List Specifier)
  | [] => { objects := o, result := .ok (done.reverse.map Resolved.source) }
  | entry :: rest =>
    match o.resolveEntry c entry with
    | .ok (o, r) => o.resolveEntries c (r :: done) rest
    | .error e => { objects := done.foldl release o, result := .error ⟨e, o⟩ }

/-! ### Recording mappings -/

/-- Puts a stream on the next track of an output and records it in the command. -/
def recordMapping (o : Objects) (command : CommandId) (output : OutputId) (s : Specifier) :
    Except Error (Objects × Event) := do
  let c ← o.command command
  let out ← o.output output
  let track := out.maps.length
  let o := o.setOutput output { out with maps := out.maps ++ [s] }
  let o := o.setCommand command { c with mappings := c.mappings ++ [⟨output, track, s⟩] }
  return (o, .mapped s.source output track)

/-- Records streams one after the other. -/
def recordMappings (o : Objects) (command : CommandId) (output : OutputId) :
    List Specifier → Except Error (Objects × List Event)
  | [] => .ok (o, [])
  | s :: rest => do
    let (o, event) ← o.recordMapping command output s
    let (o, events) ← o.recordMappings command output rest
    return (o, event :: events)

/-- The entries of what a caller gives as mappings: a single source or anything to loop over. -/
def mappingEntries (o : Objects) (mappings : Value) : Except Error (List Value) :=
  match mappings with
  | .object (.specifier _) => .ok [mappings]
  | .object (.input _) => .ok [mappings]
  | .object (.chain _) => .ok [mappings]
  | _ => o.elements mappings

/-- Maps the entries to the next tracks of an output: all of them, or none if one is refused. -/
def mapEntries (o : Objects) (command : CommandId) (c : Command) (output : OutputId)
    (entries : List Value) : Outcome Unit :=
  let r := o.resolveEntries c [] entries
  match r.result with
  | .error e => { objects := r.objects, result := .error e }
  | .ok specifiers =>
    match r.objects.recordMappings command output specifiers with
    | .ok (o, events) => { objects := o, events, result := .ok () }
    | .error e => { objects := r.objects, result := .error ⟨e, r.objects⟩ }

/-- The output that a value names, if it is not one of the command yet. -/
def newCommandOutput (o : Objects) (c : Command) (output : Value) : Except Error OutputId :=
  match output with
  | .object (.output id) =>
    if c.outputs.contains id then .error .outputAlreadyAdded
    else (o.output id).map fun _ => id
  | _ => .error (.notAnOutput (o.typeName output))

/-- Enters an output into a command. -/
def enterOutput (o : Objects) (command : CommandId) (output : OutputId) : Objects :=
  match o.command? command with
  | some c => o.setCommand command { c with outputs := c.outputs ++ [output] }
  | none => o

/-- Adds an output to a command, with mappings to its tracks. -/
def commandAddOutput (o : Objects) (command : CommandId) (output mappings : Value) :
    Outcome OutputId :=
  let checked : Except Error (Command × OutputId × List Value) := do
    let c ← o.command command
    let id ← o.newCommandOutput c output
    match mappings with
    | .null => return (c, id, [])
    | _ => return (c, id, ← o.mappingEntries mappings)
  match checked with
  | .error e => { objects := o, result := .error ⟨e, o⟩ }
  | .ok (c, id, entries) =>
    let r := o.mapEntries command c id entries
    match r.result with
    | .error e => { objects := r.objects, result := .error e }
    | .ok () =>
      { objects := r.objects.enterOutput command id, events := r.events, result := .ok id }

/-- The output of the command that a value names. -/
def commandOutput (o : Objects) (c : Command) (output : Value) : Except Error OutputId :=
  match output with
  | .object (.output id) =>
    if c.outputs.contains id then (o.output id).map fun _ => id else .error .outputNotAdded
  | _ => .error .outputNotAdded

/-- Maps a source to the next track of an output of the command; answers the track. -/
def commandMap (o : Objects) (command : CommandId) (output source index : Value) : Outcome Nat :=
  let checked : Except Error (Command × OutputId) := do
    let c ← o.command command
    return (c, ← o.commandOutput c output)
  match checked with
  | .error e => { objects := o, result := .error ⟨e, o⟩ }
  | .ok (c, id) =>
    let r := o.mapEntries command c id [.tuple [source, index]]
    r.map fun _ => ((r.objects.output? id).map fun out => out.maps.length - 1).getD 0

/-- Resolves a mapping source to the text that maps it. The pad that it means stays taken. -/
def mappingValue (o : Objects) (command : CommandId) (source index : Value) : Outcome String :=
  let resolved : Except Error (Objects × Resolved) := do
    let c ← o.command command
    o.resolveSource c source index
  match resolved with
  | .error e => { objects := o, result := .error ⟨e, o⟩ }
  | .ok (o, r) =>
    match o.specifierText r.source.source with
    | .ok text => { objects := o, events := [.resolved source text], result := .ok text }
    | .error e => { objects := o, result := .error ⟨e, o⟩ }

end MediaCommand.Objects
