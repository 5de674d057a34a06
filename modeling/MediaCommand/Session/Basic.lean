/-
A session: the objects, the settings, the logger, and what is known of the program.

A call answers the session after it, the lines that were told, and its result; a failure comes
with its wording.  Lines below the level of the logger are not told.  What a line shows is put into
words by whoever listens, so a line that has none is lost and the call goes on.  Only the filters of a
chain that has too few inputs are put into words by the call itself, whether or not anyone is told; a
call that cannot do so fails for that.
-/
import MediaCommand.Launch.Basic
import MediaCommand.Objects.Action
import MediaCommand.Objects.Grow
import MediaCommand.Objects.Inspect

namespace MediaCommand

/-- A session. -/
structure Session where
  objects : Objects := {}
  settings : Settings := {}
  logger : Logger := {}
  host : Host := {}
  program : Program := {}
  /-- The finders in the order in which they came. -/
  finders : List Finder := Finder.builtIn

/-- A failure and its wording, which faults lack. -/
structure Explained where
  cause : Error
  wording : Option String

/-- The session after a call, the lines that were told, and the result. -/
structure Reply (α : Type) where
  session : Session
  log : List LogLine := []
  result : Except Explained α

namespace Session

/-- What a wording can show. -/
def scene (s : Session) : Scene := ⟨s.objects, s.settings.mapsPerOutput, s.program.path⟩

/-- The lines that the logger tells. -/
def told (s : Session) (lines : List LogLine) : List LogLine :=
  lines.filter fun l => s.logger.tells l.level

/-- A failure with its wording. -/
def explain (s : Session) (e : Error) : Explained :=
  let (cause, wording) := s.scene.report e
  ⟨cause, wording⟩

/-- The reply of a call that leaves the session as it is. -/
def reply {α : Type} (s : Session) (lines : List LogLine) (r : Except Error α) : Reply α :=
  { session := s, log := s.told lines, result := r.mapError s.explain }

/-- The reply to a question. -/
def answer {α : Type} (s : Session) (r : Except Error α) : Reply α := s.reply [] r

/-! ### Objects -/

/-- The level of an event. -/
def eventLevel : Event → Level
  | .underconnected _ _ _ => .warning
  | .mapped _ _ _ => .debug
  | .resolved _ _ => .debug

/-- The line that tells an event. -/
def eventText (s : Session) (e : Event) : Except Error String :=
  match e with
  | .underconnected id needed bound => do
    let filters ← Objects.filtersText s.scene.texts (← s.objects.chain id)
    return "Not enough inputs on filter chain '" ++ filters ++ "': need " ++ toString needed ++
      " and currently have " ++ toString bound
  | .mapped source output track => do
    let out ← s.objects.output output
    return "mapped " ++ (← s.objects.specifierText source) ++ " to output " ++ plainUrl out.url ++
      " track " ++ toString track
  | .resolved source text => do
    return "resolved mapping source " ++ (← s.scene.shown source) ++ " to " ++ text

/-- Tells events one after the other.  A line that cannot be put together is lost, unless it is up to the
call to do so: then the call fails for that and tells nothing more. -/
def tellEvents (s : Session) : List Event → List LogLine × Except Error Unit
  | [] => ([], .ok ())
  | e :: rest =>
    match s.eventText e, e.isEager with
    | .error why, true => ([], .error why)
    | .error _, false => s.tellEvents rest
    | .ok text, _ =>
      let (lines, r) := s.tellEvents rest
      (s.told [⟨eventLevel e, text⟩] ++ lines, r)

/-- Gives marks to a value that enters the session. -/
def keep (s : Session) (v : Value) : Reply Value :=
  let (objects, v) := s.objects.keep v
  { session := { s with objects }, result := .ok v }

/-- Puts what a loop over a value meets at the end of a list, and answers the list. -/
def extendList (s : Session) (list items : Value) : Reply Value :=
  match s.objects.extendList list items with
  | .ok (objects, v) => { session := { s with objects }, result := .ok v }
  | .error e => s.answer (.error e)

/-- Carries out a call on the objects. -/
def act (s : Session) (a : Action) : Reply Value :=
  let outcome := s.objects.perform a
  let s := { s with objects := outcome.objects }
  match outcome.result with
  | .error f =>
    { session := s, result := .error ({ s with objects := f.seen }.explain f.cause) }
  | .ok v =>
    let (lines, r) := s.tellEvents outcome.events
    { session := s, log := lines, result := (r.map fun _ => v).mapError s.explain }

/-! ### Settings -/

/-- Sets settings given as a dictionary or as pairs. Those before a refused one stay set. -/
def updateSettings (s : Session) (rc : Value) : Reply Unit :=
  let (settings, r) :=
    match rc.bare with
    | .dict entries => s.settings.assignAll entries
    | _ =>
      match s.objects.elements rc with
      | .ok items => s.settings.assignPairs (items.map s.objects.elements)
      | .error e => (s.settings, .error e)
  { s with settings }.answer r

/-- Sets one setting. -/
def assignSetting (s : Session) (key v : Value) : Reply Unit :=
  match s.settings.assign key v with
  | .ok settings => { s with settings }.answer (.ok ())
  | .error e => s.answer (.error e)

/-- Removes a setting, which is always refused. -/
def removeSetting (s : Session) (key : Value) : Reply Unit := s.answer (.error (.fixedSetting key))

/-- Puts the settings back to what every session starts with. -/
def resetSettings (s : Session) : Session := { s with settings := {} }

/-- Runs a body with some settings set for its time. Whatever becomes of the settings meanwhile,
they are afterwards as they were before; if they cannot be set the body does not run. -/
def within {α : Type} (s : Session) (rc : Value) (body : Session → Session × α) : Reply α :=
  let entered := if s.objects.truth rc then s.updateSettings rc else s.answer (.ok ())
  match entered.result with
  | .error e =>
    { session := { entered.session with settings := s.settings }, result := .error e }
  | .ok () =>
    let (after, a) := body entered.session
    { session := { after with settings := s.settings }, result := .ok a }

/-- A copy of the settings with some of them set. -/
def copySettings (s : Session) (rc : Value) : Except Explained Settings :=
  let r := s.updateSettings rc
  r.result.map fun _ => r.session.settings

/-! ### The logger -/

/-- Gives the logger a level by its name in letters of any case. Bytes have letters too, but are no
name. -/
def setLogLevel (s : Session) (level : Value) : Reply Unit :=
  match level.bare with
  | .text name =>
    match Logger.levelOf? name with
    | some n => { s with logger := s.logger.setLevel n }.answer (.ok ())
    | none => s.answer (.error (.fault .wrongValue))
  | .bytes _ => s.answer (.error (.fault .wrongType))
  | _ => s.answer (.error (.fault .noSuchAttribute))

/-! ### Finders -/

/-- Adds a finder; names are given once. -/
def register (s : Session) (f : Finder) : Reply String :=
  if s.finders.any (·.name == f.name) then s.answer (.error (.fault .wrongValue))
  else { s with finders := s.finders ++ [f] }.answer (.ok f.name)

/-- Removes the finder with a name; answers whether there was one. -/
def unregister (s : Session) (name : String) : Reply Bool :=
  { s with finders := s.finders.filter (·.name != name) }.answer
    (.ok (s.finders.any (·.name == name)))

/-- The names of the finders in order. -/
def finderNames (s : Session) : List String :=
  (s.finders.map (·.name)).mergeSort VersionReport.textLe

/-- Adds finders as far as they are missing, one after the other, up to the first whose name another
finder has. -/
def addMissing (s : Session) : List Finder → Reply Unit
  | [] => s.answer (.ok ())
  | f :: rest =>
    if s.finders.contains f then s.addMissing rest
    else
      let added := s.register f
      match added.result with
      | .error e => { session := s, result := .error e }
      | .ok name =>
        let line : LogLine := ⟨.info, "registered builtin plugin " ++ name⟩
        let more := added.session.addMissing rest
        { more with log := s.told [line] ++ more.log }

/-- Adds the finders that every session starts with, as far as they are missing. -/
def addBuiltInFinders (s : Session) : Reply Unit := s.addMissing Finder.builtIn

/-! ### The program -/

/-- Starts the program in use to be asked something; answers what it was given, if it could be
started. -/
def startNow (s : Session) (asked : Option String) (args : List Value)
    (keywords : List (String × Value)) : Reply Invocation :=
  match Launch.start s.objects s.program asked args keywords with
  | .error e => s.answer (.error e)
  | .ok (invocation, line) =>
    s.reply [line] (if s.host.missing then .error .programNotFound else .ok invocation)

/-- Asks the program in use about itself. -/
def askVersions (s : Session) : Reply VersionReport :=
  let started := s.startNow none [.text "-version"] []
  match started.result with
  | .error e => { session := s, log := started.log, result := .error e }
  | .ok _ =>
    let lines := Numbered.ofTexts (Text.lines s.host.versionOutput)
    { session := s
      log := started.log
      result := (VersionReport.parse lines).mapError s.explain }

/-- Finds the program and asks it for its version. The program is in use as soon as it is found,
and its version is known once it has told it. -/
def findProgram (s : Session) (path : Option String) : Reply (String × Build) :=
  let (located, told) := Program.locate s.host s.settings s.finders path
  match located with
  | .error e => s.reply told (.error e)
  | .ok path =>
    let s := { s with program := { s.program with path := some path } }
    let asked := s.askVersions
    let log := s.told told ++ asked.log
    match asked.result with
    | .error e => { session := s, log, result := .error e }
    | .ok report =>
      match Program.buildOf report with
      | .error e => { session := s, log, result := .error (s.explain e) }
      | .ok build =>
        let s := { s with program := { s.program with build := some build } }
        let line : LogLine := ⟨.info, "using " ++ path ++ " (version " ++ build.text ++ ")"⟩
        { session := s, log := log ++ s.told [line], result := .ok (path, build) }

/-- Whether the version in use meets a condition on a version, given by its sign. -/
def checkVersion (s : Session) (version sign : Value) : Except Error Bool :=
  s.program.checkVersion version (if s.objects.truth sign then some sign else none)

/-- The text of an attribute of the package itself. -/
def packageAttribute (s : Session) (name : String) : Except Error String :=
  if name == "ffmpeg_ver" then .ok ((s.program.build.map Build.text).getD "None")
  else if name == "__version__" then .ok "0.1.0"
  else .error (.unknownAttribute name)

/-! ### Launching -/

/-- Runs the program with arguments as they are. A keyword takes the place of the program asked
for. -/
def runDirectly (s : Session) (args asked : Value) (keywords : List (String × Value)) :
    Reply Invocation :=
  if keywords.any fun e => e.1 == "args" || e.1 == "sp_run" then
    s.answer (.error (.fault .wrongType))
  else
    let asked := (Dict.get? keywords "executable").getD asked
    let keywords := keywords.filter (·.1 != "executable")
    match Launch.directCall s.objects s.program asked args with
    | .error e => s.answer (.error e)
    | .ok (asked, args) => s.startNow asked args (keywords.map Launch.directKeyword)

/-- Hands a request to the process runner. The arguments and the runner are no keywords. -/
def exec (s : Session) (r : Request) : Reply Invocation :=
  if r.names "ffmpeg_args" || r.names "sp_run" then s.answer (.error (.fault .wrongType))
  else
    match Launch.exec s.scene s.settings s.program r with
    | .error e => s.answer (.error e)
    | .ok (invocation, line) => s.reply [line] (.ok invocation)

/-- A process that was waited for. -/
structure Finished where
  invocation : Invocation
  blocks : List Progress.Block
  returnCode : Int
  log : Option String

/-- What comes of a report that may be missing. -/
def monitored (listener : Progress.Listener) (canCancel : Bool) (report : Option String) :
    Progress.Monitor :=
  Progress.monitor listener.answer canCancel (report.getD "")

/-- Runs the program for a request and waits for its end. A listener to its progress cannot cancel
it. -/
def run (s : Session) (r : Request) (input : Value) (report : Option String)
    (listener : Progress.Listener) (ending : Launch.Ending) : Reply Finished :=
  match Launch.withInput r.listening input with
  | .error e => s.answer (.error e)
  | .ok r =>
    let started := s.exec r
    let report := r.reported report
    { session := s
      log := started.log
      result := started.result.bind fun invocation =>
        ((Launch.decodeLog ending.log).mapError s.explain).map fun log =>
          ⟨invocation, (monitored listener false report).told, ending.returnCode, log⟩ }

/-- How the execution of a command ended. -/
inductive Executed
  | succeeded (process : Finished)
  /-- The program failed: the wording of that failure and the complaint found in the log. -/
  | failed (process : Finished) (wording : String) (complaint : Value)

/-- How the execution of a command ended, given the process that was waited for. -/
def executed (s : Session) (r : Request) (f : Finished) : Except Error Executed := do
  match ← Launch.failureOf s.scene.texts r.capture f.returnCode f.log with
  | none => return .succeeded f
  | some (wording, complaint) => return .failed f wording complaint

/-- Runs a command and waits for its end. The log is captured unless the caller decides about it. -/
def execute (s : Session) (command : CommandId) (r : Request) (input : Value)
    (report : Option String) (listener : Progress.Listener) (ending : Launch.Ending) :
    Reply Executed :=
  if r.names "self" then s.answer (.error (.fault .wrongType))
  else
    let captureLog := some (r.captureLog.getD (.bool true))
    let r := { r with args := .object (.command command), captureLog }
    let ran := s.run r input report listener ending
    { session := ran.session
      log := ran.log
      result := ran.result.bind fun f => (s.executed r f).mapError s.explain }

/-- A process that goes on while the caller does. -/
structure Started where
  invocation : Invocation
  blocks : List Progress.Block
  returnCode : Int
  exits : List Launch.ExitStep
  /-- The signals that reach the process. -/
  signals : List Launch.Signal

/-- Starts the program for a request. A listener to its progress may interrupt it once. The process
and its arguments are no keywords, and neither are the listeners to its end if the call gives
some. -/
def spawn (s : Session) (r : Request) (report : Option String) (listener : Progress.Listener)
    (exitListeners : Option Nat) (signals : List Launch.Signal) (returnCode : Int) :
    Reply Started :=
  if r.names "self" || r.names "ffmpeg_args" then s.answer (.error (.fault .wrongType))
  else if Launch.protectedKeywords.any r.names then s.answer (.error .protectedKeyword)
  else
    let keyword := (Dict.get? r.keywords "on_exit").getD .null
    let r := { r.listening with keywords := r.keywords.filter (·.1 != "on_exit") }
    let started := s.exec r
    let progress := monitored listener true (r.reported report)
    let waiting := (Launch.listeners? s.objects r exitListeners keyword).mapError s.explain
    { session := s
      log := started.log
      result := started.result.bind fun invocation => waiting.map fun waiting =>
        { invocation
          blocks := progress.told
          returnCode
          exits := (waiting.map (Launch.exitSteps s.objects r · returnCode)).getD []
          signals := List.replicate progress.cancellations .interrupt ++ signals } }

end Session

end MediaCommand
