/-
Writing and reading texts on their own: option values, filters, labels, argument lists, stream
selectors, logs and reports.

What is given can be a value of any kind.  Each call says which kinds it takes; another kind is
a fault, and which fault depends on what is first done with the value.
-/
import MediaCommand.Options
import MediaCommand.Session.Basic

namespace MediaCommand

namespace Session

/-! ### Filters -/

/-- The expression of an option value. -/
def composeValue (s : Session) (v : Value) : Except Error String :=
  Expression.value s.scene.texts v

/-- The expression of an option whose key may be any value. Only a text stands as a flag. -/
def composeOption (s : Session) (key v : Value) : Except Error (Option String) :=
  match v with
  | .null => match key with
    | .text k => .ok (some k)
    | _ => .ok none
  | _ => do return some ((← s.scene.plain key) ++ "=" ++ (← s.composeValue v))

/-- The expression of options. -/
def composeOptions (s : Session) (options : Value) : Except Error String :=
  match options.bare with
  | .dict entries => do
    let items ← entries.mapM fun e => s.composeOption e.1 e.2
    if items.all Option.isSome then return ":".intercalate (items.filterMap id)
    else .error (.fault .wrongType)
  | _ => .error (.fault .noSuchAttribute)

/-- The expression of a filter. -/
def composeFilter (s : Session) (name options : Value) : Except Error Value :=
  if !s.objects.truth options then .ok name
  else do
    let name ← s.scene.plain name
    return .text (name ++ "=" ++ (← s.composeOptions options))

/-- A label in brackets. -/
def bracketLabel (label : Value) : Except Error String := label.asText.map Expression.bracket

/-! ### Arguments -/

/-- The arguments for options. -/
def optionArgs (s : Session) (options : Value) : Except Error (List String) :=
  if !s.objects.truth options then .ok []
  else
    match options.bare with
    | .dict entries => Objects.optionsArgs s.scene.texts entries
    | _ => .error (.fault .noSuchAttribute)

/-- The arguments of a file or of a command. -/
def argumentsOf (s : Session) (v : Value) : Except Error (List Argument) := do
  let o := s.objects
  match v with
  | .object (.input id) => Objects.inputArgs s.scene.texts (← o.input id)
  | .object (.output id) => Objects.outputArgs s.scene.texts (← o.output id)
  | .object (.command id) =>
    o.commandArgs s.scene.texts s.settings.mapsPerOutput (← o.command id)
  | _ => .error (.fault .noSuchAttribute)

/-- The program that a command runs and its arguments. -/
def compiled (s : Session) (id : CommandId) : Except Error (String × List Argument) := do
  let args ← s.argumentsOf (.object (.command id))
  return (Objects.commandProgram s.program.path (← s.objects.command id), args)

/-- The options in a command line or in a sequence of arguments. -/
def readOptions (s : Session) (args : Value) : Except Error GivenOptions :=
  match args with
  | .text line => do Options.read s.objects (.ofTexts (← Launch.splitLine line))
  | _ => do Options.read s.objects (← s.objects.numbered args)

/-- An argument for display. -/
def displayWord (arg : Value) : Except Error String := arg.asked.map Shell.display

/-- A command line that splits into the given words. -/
def joinWords (s : Session) (args : Value) : Except Error String := do
  let words ← s.objects.elements args
  return " ".intercalate (← words.mapM (Launch.logWord s.objects))

/-! ### Stream selectors -/

/-- What a field of a selector says, as a value. -/
def fieldValue : Selector.Field → Value
  | .mediaType letter => .text letter
  | .programId n => .int n
  | .groupIndex n => .int n
  | .groupId n => .int n
  | .streamId n => .int n
  | .index n => .int n
  | .tag key none => .text key
  | .tag key (some value) => .tuple [.text key, .text value]
  | .usable => .bool true

/-- The fields of a selector as a value. -/
def fieldsValue (fields : List Selector.Field) : Value :=
  .dict (fields.map fun f => (.text f.key, fieldValue f))

/-- Why reading a selector fails: a numeral that is too long is a fault and has no words. -/
def selectorError : Selector.Invalid → Error
  | .tooLong _ _ => .fault .wrongValue
  | why => .selector why

/-- The fields of a stream selector. -/
def readSelector (s : Session) (spec : Value) : Except Error (List Selector.Field) :=
  (s.objects.selectorFields spec).mapError selectorError

/-- Whether a value is a stream selector. -/
def isSelector (s : Session) (spec : Value) : Bool := (s.objects.selectorFields spec).isOk

/-! ### Logs and reports -/

/-- The lines of a log given as a text or line by line, if there is one. -/
def logGiven (s : Session) (log : Value) : Except Error (Option Numbered) :=
  match log with
  | .null => .ok none
  | .text t => .ok (some (.ofTexts (ErrorLog.lines t)))
  | _ => (s.objects.numbered log).map some

/-- The complaint in a log. -/
def complaintIn (s : Session) (log : Value) : Except Error Value := do
  match ← s.logGiven log with
  | none => return .text ""
  | some lines => ErrorLog.scan s.scene.texts lines

/-- The wording of the failure of a program that left a log, and the complaint in it. A log without
anything in it counts as none. -/
def failureWords (s : Session) (log shown : Value) : Except Error (String × Value) := do
  let lines ← if log.equal (.text "") then .ok none else s.logGiven log
  ErrorLog.failureWording s.scene.texts (lines.filter (0 < ·.size)) (s.objects.truth shown)

/-- The report in lines that a program printed. -/
def readReport (s : Session) (lines : Value) : Except Error VersionReport := do
  VersionReport.parse (← s.objects.numbered lines)

/-! ### Settings -/

/-- Settings as lines of a key and a value. -/
def settingsText (s : Session) (entries : List (Settings.Key × Value)) : Except Error String := do
  return "\n".intercalate (← entries.mapM fun e => do
    return e.1.name ++ ": " ++ (← s.scene.plain e.2))

/-- Settings as they are shown. -/
def settingsShown (s : Session) (entries : List (Settings.Key × Value)) : Except Error String := do
  let dict := .dict (entries.map fun e => (.text e.1.name, e.2))
  return "RcParams(" ++ (← s.scene.shown dict) ++ ")"

end Session

end MediaCommand
