/-
The wording of objects, failures and events.

A scene is all that a wording can show: the objects, and what of the settings goes into a
command line. Objects can stand in option values of other objects, so their texts refer to each
other.  A container inside itself is left out, so a text goes down at most as many levels as there
are objects between any two of all containers; objects that hold each other without end and without
a container between them have no text.

A failure is put into words when it arises.  If that fails in turn, the later failure takes its
place.
-/
import MediaCommand.Objects.Arguments

namespace MediaCommand

/-- What a wording can show. -/
structure Scene where
  objects : Objects
  mapsPerOutput : Bool
  program : Option String

/-- Whether the failure is about filters, chains or graphs themselves. -/
def Error.isGraphError : Error → Bool
  | .invalidObject _ _ | .emptyFilterName | .filterOptionKey | .emptyChain | .alreadyPlaced _ _
  | .unplaced _ | .appendLosesPad _ _ _ | .prependLosesInput _ _ _ | .tooManyInputs _ _ _
  | .noOutputPad _ | .padSelector _ | .padOutOfRange _ _ _ | .duplicateLabel _ => true
  | _ => false

namespace Objects

/-! ### Failures -/

/-- The filters of a chain named by a failure. -/
def namedFilters (o : Objects) (t : Texts) (id : ChainId) : Except Error String := do
  filtersText t (← o.chain id)

/-- The wording of a refused setting value. -/
def refusalText (t : Texts) (why : Refusal) : Except Error String :=
  match why with
  | .notBool got => do return "Cannot convert " ++ (← got.shown t) ++ " to bool"
  | .notPath got => do return (← got.shown t) ++ " is not a path-like object"

/-- The wording of a failure about filters, chains and graphs, or nothing for other failures. -/
def describeGraphError (o : Objects) (t : Texts) (e : Error) : Except Error (Option String) :=
  match e with
  | .invalidObject expected got => do
    return some ("expected " ++ expected.words ++ " but got " ++ o.typeName got ++ " (" ++
      (← got.shown t) ++ ")")
  | .emptyFilterName => .ok (some "filter name must be a non-empty str.")
  | .filterOptionKey => .ok (some "All keys of the named option dict must be of type str.")
  | .padCountType typeName => .ok (some ("pad count must be an int, got " ++ typeName))
  | .negativePadCount n => .ok (some ("pad count must be non-negative, got " ++ toString n))
  | .emptyChain => .ok (some "Chain requires at least one Filter object.")
  | .alreadyPlaced id position => do
    return some ("Chain '" ++ (← o.namedFilters t id) ++
      "' is already a part of a filtergraph (position " ++ toString position ++ ").")
  | .unplaced id => do
    return some ("Chain '" ++ (← o.namedFilters t id) ++
      "' must be appended to a filtergraph to label its output pads.")
  | .appendLosesPad filter arity pad =>
    .ok (some ("Cannot append " ++ filter ++ ": it has " ++ arity.text ++
      " output pads while pad " ++ toString pad ++ " of the chain is referenced."))
  | .prependLosesInput filter arity bound =>
    .ok (some ("Cannot prepend " ++ filter ++ ": it has " ++ arity.text ++ " input pads while " ++
      toString bound ++ " inputs are bound to the chain."))
  | .tooManyInputs filter arity given =>
    .ok (some ("Too many inputs specified: " ++ filter ++ " takes " ++ arity.text ++
      " inputs but " ++ toString given ++ " were given"))
  | .padTaken id pad => do
    let what ← match pad with
      | .null => .ok "All output pads"
      | p => do pure ("Output pad " ++ (← p.plain t))
    return some (what ++ " of filter chain '" ++ (← o.namedFilters t id) ++
      "' already consumed by another chain or mapped to an output")
  | .noOutputPad filter => .ok (some (filter ++ " has no output pad"))
  | .padSelector got => do
    return some ("output pad must be specified by its index, got " ++ (← got.shown t))
  | .padOutOfRange pad filter arity =>
    .ok (some ("output pad " ++ toString pad ++ " is out of range: " ++ filter ++ " has " ++
      arity.text ++ " output pads"))
  | .duplicateLabel label =>
    .ok (some ("pad label [" ++ label ++
      "] is generated by more than one filtergraph of the command"))
  | _ => .ok none

/-- The wording of a failure about files, streams and commands, or nothing for other failures. -/
def describeCommandError (o : Objects) (t : Texts) (e : Error) : Except Error (Option String) :=
  match e with
  | .notAnInput typeName => .ok (some ("expected an Input object but got " ++ typeName))
  | .notAnOutput typeName => .ok (some ("expected an Output object but got " ++ typeName))
  | .notAChain typeName => .ok (some ("expected a Chain object but got " ++ typeName))
  | .filterHasNoPad =>
    .ok (some "a Filter has no output pad of its own. Reference the Chain which contains it.")
  | .selector why => .ok (some why.message)
  | .track got why => do
    return some ("invalid track selector " ++ (← got.shown t) ++ ": " ++ why.message)
  | .urlType typeName =>
    .ok (some ("url must be a str or path-like object, got " ++ typeName))
  | .optionsType typeName => .ok (some ("options must be a dict, got " ++ typeName))
  | .optionKey => .ok (some "All option keys must be of type str.")
  | .labelTaken url label =>
    .ok (some ("Input " ++ plainUrl url ++ " has already been added to a command (label=" ++
      toString label ++ ")"))
  | .inputNotFound url =>
    .ok (some ("Input file is not a part of the command: " ++ plainUrl url))
  | .chainNotFound id => do
    return some ("Filter chain '" ++ (← o.namedFilters t id) ++
      "' is not a part of any filtergraph of the command")
  | .unknownSource got => do
    return some ("Unknown input type specified in output mapping: " ++ o.typeName got ++ " (" ++
      (← got.shown t) ++ ")")
  | .graphAlreadyAdded => .ok (some "the filtergraph has already been added to the command")
  | .outputAlreadyAdded => .ok (some "the output has already been added to the command")
  | .outputNotAdded => .ok (some "the output is not a part of the command")
  | .indexWithSpecifier =>
    .ok (some "index cannot be specified with a stream specifier mapping source")
  | _ => .ok none

/-- The wording of a failure about settings and the program, or nothing for other failures. -/
def describeProgramError (t : Texts) (e : Error) : Except Error (Option String) :=
  match e with
  | .refused why => do return some (← refusalText t why)
  | .unknownSetting key => do
    return some ((← key.plain t) ++
      " is not a valid rc parameter (see rcParams.keys() for a list of valid parameters)")
  | .fixedSetting key => do return some ((← key.plain t) ++ " cannot be removed from rcParams")
  | .settingRefused key why => do return some ("Key " ++ key ++ ": " ++ (← refusalText t why))
  | .programNotFound =>
    .ok (some ("FFmpeg executable not found. Run \x60ffmpegcmd.set_path()\x60 first, set " ++
      "rcParams['path.ffmpeg'], or place the FFmpeg executable in an auto-detectable path " ++
      "location."))
  | .folderWithoutProgram folder => .ok (some ("ffmpeg not found in " ++ folder))
  | .noProgramAt path => .ok (some ("ffmpeg executable not found or " ++ path))
  | .detectionFailed => .ok (some "Failed to auto-detect ffmpeg executable.")
  | .unexpectedReport line => .ok (some ("Unexpected FFmpeg version output: " ++ line))
  | .unversionedBuild build => .ok (some ("cannot compare against FFmpeg " ++ build ++ " build"))
  | .unknownAttribute name => .ok (some ("module 'ffmpegcmd' has no attribute '" ++ name ++ "'"))
  | .argumentsType typeName =>
    .ok (some ("ffmpeg_args must be a Command, str, or a sequence of str, got " ++ typeName))
  | .overwriteTwice =>
    .ok (some "Cannot set both the overwrite argument and a y/n global flag.")
  | .stderrIntoStdout =>
    .ok (some "stderr cannot be redirected to stdout, which is in use")
  | .protectedKeyword =>
    .ok (some "Input arguments contain protected subprocess.Popen keyword argument(s).")
  | .programFailed message => .ok (some message)
  | _ => .ok none

/-- The wording of a failure; faults have none. -/
def describe (o : Objects) (t : Texts) (e : Error) : Except Error (Option String) := do
  match ← o.describeGraphError t e with
  | some text => return some text
  | none =>
    match ← o.describeCommandError t e with
    | some text => return some text
    | none => describeProgramError t e

/-- A failure with its wording, or the failure that arose from putting it into words. -/
def report (o : Objects) (t : Texts) : Nat → Error → Error × Option String
  | 0, _ => (.fault .tooDeep, none)
  | n + 1, e =>
    match o.describe t e with
    | .ok text => (e, text)
    | .error e' => o.report t n e'

/-! ### Objects as messages show them -/

/-- The line that shows an object of a graph. -/
def graphObjectText (typeName expression : String) : String :=
  "<ffmpegcmd.filtergraph." ++ typeName ++ "." ++ typeName ++ " object at 0x>\n    " ++
    "FFmpeg expression: \"" ++ expression ++ "\"\n"

/-- Shows an object of a graph by its expression, or says why it has none. -/
def showGraphObject (o : Objects) (t : Texts) (depth : Nat) (typeName : String)
    (expression : Except Error String) : Except Error String :=
  match expression with
  | .ok s => .ok (graphObjectText typeName s)
  | .error e =>
    let (e, text) := o.report t depth e
    if e.isGraphError then
      .ok (graphObjectText typeName ("<not composable: " ++ text.getD "" ++ ">"))
    else .error e

/-- Shows an input. -/
def showInput (i : Input) : String :=
  "<Input url=" ++ shownUrl i.url ++ " label=" ++ ((i.label.map toString).getD "None") ++ ">"

/-- Shows an output. -/
def showOutput (out : Output) : String :=
  "<Output url=" ++ shownUrl out.url ++ " nmaps=" ++ toString out.maps.length ++ ">"

/-- Shows a command. -/
def showCommand (c : Command) : String :=
  "<Command ninputs=" ++ toString c.inputs.length ++ " noutputs=" ++ toString c.outputs.length ++
    " ngraphs=" ++ toString c.graphs.length ++ ">"

/-- Shows a specifier by its anchor and what it selects. -/
def showSpecifier (t : Texts) (s : Source) : Except Error String :=
  match s with
  | .input id track => do
    return "<ffmpegcmd.stream_spec.InputStreamSpecifier anchor=" ++ (← t.shown (.input id)) ++
      " selector=" ++ (← ((track.map Track.toValue).getD .null).shown t) ++ ">"
  | .pad id pad => do
    return "<ffmpegcmd.stream_spec.FilterPadSpecifier anchor=" ++ (← t.shown (.chain id)) ++
      " selector=" ++ toString pad ++ ">"

end Objects

namespace Scene

/-- The items of a filter, which is a sequence of its parts. -/
def objectItems? (s : Scene) (x : Object) : Option (List Value) := s.objects.items? (.object x)

/-- The plain text of an object, given the texts of the objects in it. -/
def plainObject (s : Scene) (t : Texts) (x : Object) : Except Error String :=
  let o := s.objects
  match x with
  | .filter id => do (← o.filter id).expression t
  | .chain id => do o.chainText t id (← o.chain id)
  | .graph id => do o.graphText t (← o.graph id)
  | .input id => do return Objects.showInput (← o.input id)
  | .output id => do return Objects.showOutput (← o.output id)
  | .specifier id => do o.specifierText (← o.specifier id).source
  | .command id => do o.commandText t s.mapsPerOutput s.program (← o.command id)

/-- The shown text of an object, given the texts of the objects in it. -/
def shownObject (s : Scene) (t : Texts) (depth : Nat) (x : Object) : Except Error String :=
  let o := s.objects
  match x with
  | .filter id => do
    let f ← o.filter id
    o.showGraphObject t depth "Filter" (f.expression t)
  | .chain id => do
    let c ← o.chain id
    o.showGraphObject t depth "Chain" (o.chainText t id c)
  | .graph id => do
    let g ← o.graph id
    o.showGraphObject t depth "Graph" (o.graphText t g)
  | .input id => do return Objects.showInput (← o.input id)
  | .output id => do return Objects.showOutput (← o.output id)
  | .specifier id => do Objects.showSpecifier t (← o.specifier id).source
  | .command id => do return Objects.showCommand (← o.command id)

/-- The texts of objects down to a depth. -/
def textsTo (s : Scene) : Nat → Texts
  | 0 =>
    { plainWithin := fun _ _ => .error (.fault .tooDeep)
      shownWithin := fun _ _ => .error (.fault .tooDeep)
      items? := s.objectItems? }
  | n + 1 =>
    let t := s.textsTo n
    { plainWithin := fun within => s.plainObject { t with within }
      shownWithin := fun within => s.shownObject { t with within } (n + 1)
      items? := s.objectItems? }

/-- More levels than objects can stand in each other with an end. -/
def depth (s : Scene) : Nat := (s.objects.count + 2) * (s.objects.containerCount + 1)

/-- The texts of objects. -/
def texts (s : Scene) : Texts := s.textsTo s.depth

/-- The plain text of a value. -/
def plain (s : Scene) (v : Value) : Except Error String := v.plain s.texts

/-- The shown text of a value. -/
def shown (s : Scene) (v : Value) : Except Error String := v.shown s.texts

/-- A failure with its wording. -/
def report (s : Scene) (e : Error) : Error × Option String :=
  s.objects.report s.texts s.depth e

end Scene

end MediaCommand
