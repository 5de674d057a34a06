/-
Writing a command out: options as arguments, the complex filter, and the whole argument list.

An option is its key after a dash, followed by its value unless it is a flag, and repeated for
each item of a sequence.  The arguments of a command are its global options, its inputs, the
complex filter, the maps, and its outputs.  The maps stand together before all outputs or each
group before its output, as the settings say.
-/
import MediaCommand.Objects.Map
import MediaCommand.Shell.Words

namespace MediaCommand.Objects

/-! ### Options -/

/-- The items of a value that repeats its option. -/
def repeated? (v : Value) : Option (List Value) :=
  match v.bare with
  | .list items => some items
  | .tuple items => some items
  | .bytes data => some (Value.ofBytes data)
  | .arity a => some [Value.ofCount a]
  | _ => none

/-- The argument for an option value. -/
def optionValue (t : Texts) (v : Value) : Except Error String :=
  match v with
  | .bool b => .ok (if b then "1" else "0")
  | _ => v.plain t

/-- The arguments for one occurrence of an option. -/
def occurrence (t : Texts) (key : String) (v : Value) : Except Error (List String) :=
  match v with
  | .null => .ok [key]
  | _ => do return [key, ← optionValue t v]

/-- The arguments for an option. -/
def optionArgs (t : Texts) (key v : Value) : Except Error (List String) := do
  let key := "-" ++ (← key.plain t)
  match repeated? v with
  | some items => return (← items.mapM (occurrence t key)).flatten
  | none => occurrence t key v

/-- The arguments for options. -/
def optionsArgs (t : Texts) (entries : List (Value × Value)) : Except Error (List String) := do
  return (← entries.mapM fun (k, v) => optionArgs t k v).flatten

/-- The arguments for the options of a file. -/
def fileOptionsArgs (t : Texts) (entries : List (String × Value)) : Except Error (List String) :=
  optionsArgs t (entries.map fun (k, v) => (.text k, v))

/-! ### Files -/

/-- The file that takes everything and gives nothing. -/
def nullDevice : String := "/dev/null"

/-- The argument that names a file. -/
def urlArg (url : Option Argument) : Argument := url.getD (.text nullDevice)

/-- The arguments of an input. -/
def inputArgs (t : Texts) (i : Input) : Except Error (List Argument) := do
  return (← fileOptionsArgs t i.options).map .text ++ [.text "-i", urlArg i.url]

/-- The arguments of an output. -/
def outputArgs (t : Texts) (out : Output) : Except Error (List Argument) := do
  return (← fileOptionsArgs t out.options).map .text ++ [urlArg out.url]

/-! ### The complex filter -/

/-- The graphs that go into the complex filter: the non-empty ones not applied to one output. -/
def complexGraphs (o : Objects) (c : Command) : Except Error (List Graph) := do
  let graphs ← (c.graphs.filter fun g => !c.attached.any (·.1 == g)).mapM o.graph
  return graphs.filter fun g => !g.chains.isEmpty

/-- Refuses the first label that came before. -/
def checkLabels (seen : List String) : List String → Except Error Unit
  | [] => .ok ()
  | l :: rest =>
    if seen.contains l then .error (.duplicateLabel l) else checkLabels (l :: seen) rest

/-- The complex filter of a command; empty if no graph goes into it. -/
def complexFilter (o : Objects) (t : Texts) (c : Command) : Except Error String := do
  o.checkBindings c c.graphs c.graphs
  let graphs ← o.complexGraphs c
  checkLabels [] (← graphs.mapM o.graphLabels).flatten
  return ";".intercalate (← graphs.mapM (o.graphText t))

/-! ### The whole command -/

/-- The arguments that map streams. -/
def mapArgs (o : Objects) (specifiers : List Specifier) : Except Error (List Argument) := do
  let texts ← specifiers.mapM fun s => o.specifierText s.source
  return texts.flatMap fun text => [.text "-map", .text text]

/-- The arguments of an output with its maps in front, if they go there. -/
def outputBlock (o : Objects) (t : Texts) (mapsPerOutput : Bool) (id : OutputId) :
    Except Error (List Argument) := do
  let out ← o.output id
  let maps ← if mapsPerOutput then o.mapArgs out.maps else .ok []
  return maps ++ (← outputArgs t out)

/-- The arguments of a command. -/
def commandArgs (o : Objects) (t : Texts) (mapsPerOutput : Bool) (c : Command) :
    Except Error (List Argument) := do
  let options ← optionsArgs t c.options
  let inputs ← c.inputs.mapM fun id => do inputArgs t (← o.input id)
  let expression ← o.complexFilter t c
  let filter := if expression.isEmpty then [] else [.text "-filter_complex", .text expression]
  let maps ← if mapsPerOutput then .ok [] else o.mapArgs (c.mappings.map Mapping.source)
  let outputs ← c.outputs.mapM (o.outputBlock t mapsPerOutput)
  return options.map .text ++ inputs.flatten ++ filter ++ maps ++ outputs.flatten

/-- The program that a command runs: its own, else the one found, else the usual name. -/
def commandProgram (found : Option String) (c : Command) : String :=
  ((c.executable.filter (!·.isEmpty)).or (found.filter (!·.isEmpty))).getD "ffmpeg"

/-- An argument for display. -/
def displayArg (a : Argument) : Except Error String :=
  match a with
  | .text s => .ok (Shell.display s)
  | .raw _ _ => .error (.fault .wrongType)

/-- The command line of a command for display. -/
def commandText (o : Objects) (t : Texts) (mapsPerOutput : Bool) (found : Option String)
    (c : Command) : Except Error String := do
  let args ← o.commandArgs t mapsPerOutput c
  return " ".intercalate (commandProgram found c :: (← args.mapM displayArg))

end MediaCommand.Objects
