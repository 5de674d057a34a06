/-
Starting the program for a command, a list of arguments, or a command line.

The launcher adds its own flags in front of the arguments, unless the arguments hold them
already, and opens a pipe wherever the arguments read from or write to a standard stream.  It
refuses to decide twice about overwriting, and to send the log into a stream that carries the
output.  What it would hand to the process runner is the result: nothing is started here.
-/
import MediaCommand.ErrorLog
import MediaCommand.Program.Basic
import MediaCommand.Progress
import MediaCommand.Scene

namespace MediaCommand

/-- Where a standard stream of a process may lead to besides a descriptor. -/
inductive Handle
  | pipe
  | stdout
  | devnull
  deriving DecidableEq, Repr

namespace Handle

/-- The handles. -/
def all : List Handle := [pipe, stdout, devnull]

/-- The number that stands for a handle; it is no descriptor. -/
def number : Handle → Int
  | pipe => -1
  | stdout => -2
  | devnull => -3

/-- The word for a handle. -/
def word : Handle → String
  | pipe => "PIPE"
  | stdout => "STDOUT"
  | devnull => "DEVNULL"

/-- The handle as a value. -/
def toValue (h : Handle) : Value := .int h.number

/-- Whether a stream that a value is given for leads to a handle. -/
def isMeant (h : Handle) (v : Value) : Bool := v.equal h.toValue

/-- What a caller means by a value for a stream: a word for a handle is that handle. -/
def asked (v : Value) : Value :=
  match v with
  | .text s => ((all.find? (·.word == s)).map toValue).getD v
  | _ => v

/-- The value for a stream as it is shown: a handle by its word. -/
def told (v : Value) : Value :=
  match v with
  | .int n => ((all.find? (·.number == n)).map fun h => .text h.word).getD v
  | _ => v

end Handle

/-- What a caller asks of the launcher. -/
structure Request where
  args : Value
  hideBanner : Value := .null
  overwrite : Value := .null
  /-- Whether the log is captured; none leaves it to the call. -/
  captureLog : Option Value := none
  /-- Where standard input leads; null leaves it alone. -/
  stdin : Value := .null
  stdout : Value := .null
  stderr : Value := .null
  /-- Further keywords for the process runner. -/
  keywords : List (String × Value) := []
  /-- The file that progress is reported to. -/
  progressFile : Option String := none
  /-- What a keyword gives where there is neither such a file nor a listener to the reports. -/
  monitor : Value := .null

namespace Request

/-- The name of a file made for the reports of one process. -/
def reportFile : String := "/tmp/progress/report"

/-- The request with one more keyword. Those that the launcher knows take the place of what it was
asked before, except for progress, and the others go to the process runner. -/
def withKeyword (r : Request) (name : String) (v : Value) : Request :=
  match name with
  | "hide_banner" => { r with hideBanner := v }
  | "overwrite" => { r with overwrite := v }
  | "capture_log" => { r with captureLog := some v }
  | "stdin" => { r with stdin := v }
  | "stdout" => { r with stdout := v }
  | "stderr" => { r with stderr := v }
  | "progress" => if r.progressFile.isSome then r else { r with monitor := v }
  | _ => { r with keywords := Dict.put r.keywords name v }

/-- The request with keywords, one after the other. -/
def withKeywords (r : Request) (keywords : List (String × Value)) : Request :=
  keywords.foldl (fun r e => r.withKeyword e.1 e.2) r

/-- Whether the keywords of the request hold a name. -/
def names (r : Request) (name : String) : Bool := r.keywords.any (·.1 == name)

/-- How the caller wants the log captured. -/
def capture (r : Request) : Value := r.captureLog.getD .null

/-- The request of a caller that listens to the reports. Whatever a keyword gives in place of the
listener has a file made for it. -/
def listening (r : Request) : Request :=
  if r.monitor.isNull then r else { r with progressFile := some reportFile }

/-- What a listener is told of a report, if there is a listener: a value given in its place is told
nothing. -/
def reported (r : Request) (report : Option String) : Option String :=
  if r.progressFile.isSome && r.monitor.isNull then report else none

end Request

/-- What the process runner is given. -/
structure Invocation where
  argv : List Value
  keywords : List (String × Value)

namespace Launch

/-! ### Arguments -/

/-- The words of a command line as arguments. -/
def splitLine (line : String) : Except Error (List String) :=
  match Shell.split? line with
  | some words => .ok words
  | none => .error (.fault .wrongValue)

/-- The program asked for and the arguments, from whatever the caller gives for a command. -/
def resolveArgs (s : Scene) (v : Value) : Except Error (Option String × List Argument) :=
  match v with
  | .object (.command id) => do
    let c ← s.objects.command id
    return (c.executable, ← s.objects.commandArgs s.texts s.mapsPerOutput c)
  | .text line => do return (none, (← splitLine line).map .text)
  | _ =>
    match s.objects.items? v with
    | some items => do return (none, (← items.mapM s.plain).map .text)
    | none => .error (.argumentsType (s.objects.typeName v))

/-- The names of standard input among files. -/
def stdinUrls : List Argument := [.text "-", .text "pipe:", .text "pipe:0"]

/-- The names of standard output among files. -/
def stdoutUrls : List Argument := [.text "-", .text "pipe:", .text "pipe:1"]

/-- Whether an input of the arguments is standard input. -/
def readsStdin : List Argument → Bool
  | a :: b :: rest => (a == .text "-i" && stdinUrls.contains b) || readsStdin (b :: rest)
  | _ => false

/-- Whether the last of the arguments is standard output. -/
def writesStdout (args : List Argument) : Bool :=
  match args.getLast? with
  | some a => stdoutUrls.contains a
  | none => false

/-! ### Flags -/

/-- The flag that closes standard input, unless the program is to read it. -/
def stdinFlag (settings : Settings) (args : List Argument) : List String :=
  if settings.noStdin && !args.contains (.text "-nostdin") && !readsStdin args then ["-nostdin"]
  else []

/-- The flag that silences the banner. -/
def bannerFlag (o : Objects) (settings : Settings) (r : Request) (args : List Argument) :
    List String :=
  let hide := match r.hideBanner with
    | .null => settings.hideBanner
    | v => o.truth v
  if hide && !args.contains (.text "-hide_banner") then ["-hide_banner"] else []

/-- The file for progress reports. What counts as true in place of a monitor must have a file. -/
def reportsTo (o : Objects) (r : Request) : Except Error (Option Argument) :=
  match r.progressFile, r.monitor with
  | some file, _ => .ok (some (.text file))
  | none, .object (.input id) => (o.input id).map (·.url)
  | none, .object (.output id) => (o.output id).map (·.url)
  | none, v => if o.truth v then .error (.fault .noSuchAttribute) else .ok none

/-- The flag that names the file for progress reports, if it has a name. -/
def progressFlag (o : Objects) (r : Request) : Except Error (List Argument) := do
  match (← reportsTo o r).filter fun file => o.truth file.toValue with
  | some file => return [.text "-progress", file]
  | none => return []

/-- The flag that answers whether to overwrite files. -/
def overwriteFlag (o : Objects) (r : Request) (args : List Argument) : Except Error (List String) :=
  match r.overwrite with
  | .null => .ok []
  | v =>
    if args.contains (.text "-y") || args.contains (.text "-n") then .error .overwriteTwice
    else .ok [if o.truth v then "-y" else "-n"]

/-- All flags of the launcher. -/
def flags (o : Objects) (settings : Settings) (r : Request) (args : List Argument) :
    Except Error (List Argument) := do
  let quiet := stdinFlag settings args ++ bannerFlag o settings r args
  return quiet.map .text ++ (← progressFlag o r) ++ (← overwriteFlag o r args).map .text

/-! ### Streams -/

/-- Whether input data is given. -/
def hasInput (r : Request) : Bool :=
  match Dict.get? r.keywords "input" with
  | none => false
  | some .null => false
  | some _ => true

/-- Where standard input leads. -/
def stdinValue (r : Request) (args : List Argument) : Value :=
  if r.stdin.isNull && !hasInput r && readsStdin args then Handle.pipe.toValue else r.stdin

/-- Where standard output leads. -/
def stdoutValue (r : Request) (args : List Argument) : Value :=
  if r.stdout.isNull && writesStdout args then Handle.pipe.toValue else r.stdout

/-- Where the log leads: to the stream asked for if that counts as true, else as the caller wants it
captured. -/
def stderrValue (o : Objects) (r : Request) : Value :=
  if o.truth r.stderr then r.stderr
  else
    match r.capture with
    | .null => .null
    | v => if o.truth v then Handle.pipe.toValue else Handle.devnull.toValue

/-! ### The invocation -/

/-- One word of a command line for the log: empty values count as empty words. -/
def logWord (o : Objects) (v : Value) : Except Error String :=
  match v with
  | .text s => .ok (Shell.quote s)
  | _ => if o.truth v then .error (.fault .wrongType) else .ok (Shell.quote "")

/-- The command line for the log. -/
def logLine (o : Objects) (words : List Value) : Except Error LogLine := do
  return ⟨.debug, " ".intercalate (← words.mapM (logWord o))⟩

/-- Hands the program and its arguments to the process runner, and tells the command line. -/
def start (o : Objects) (program : Program) (asked : Option String) (args : List Value)
    (keywords : List (String × Value)) : Except Error (Invocation × LogLine) := do
  let argv := .text (← program.toStart asked) :: args
  return (⟨argv, keywords⟩, ← logLine o argv)

/-- The invocation for a request, and the line that tells it. -/
def exec (s : Scene) (settings : Settings) (program : Program) (r : Request) :
    Except Error (Invocation × LogLine) := do
  let (asked, args) ← resolveArgs s r.args
  let flags ← flags s.objects settings r args
  let stdout := stdoutValue r args
  if Handle.stdout.isMeant r.stderr && Handle.pipe.isMeant stdout then throw .stderrIntoStdout
  if r.names "args" || r.names "executable" then throw (.fault .wrongType)
  let streams :=
    [("stdin", Handle.told (stdinValue r args)), ("stdout", Handle.told stdout),
      ("stderr", Handle.told (stderrValue s.objects r))]
  start s.objects program asked ((flags ++ args).map Argument.toValue) (streams ++ r.keywords)

/-- The program that a direct call asks for, by its path. What counts as false asks for none. -/
def programAsked (o : Objects) (v : Value) : Except Error (Option String) :=
  match v with
  | .text path => .ok (some path)
  | _ => if o.truth v then .error (.fault .wrongType) else .ok none

/-- The program that a direct call asks for and its arguments: the words of a line, or anything to
loop over once it is known that there is a program to start. -/
def directCall (o : Objects) (program : Program) (asked v : Value) :
    Except Error (Option String × List Value) :=
  match v with
  | .text line => do
    let words ← splitLine line
    return (← programAsked o asked, words.map .text)
  | _ => do
    let asked ← programAsked o asked
    let _ ← program.toStart asked
    return (asked, ← o.elements v)

/-- A keyword of a direct call as the process runner is told of it: a stream by what it leads to. -/
def directKeyword (keyword : String × Value) : String × Value :=
  if ["stdin", "stdout", "stderr"].contains keyword.1 then
    (keyword.1, Handle.told keyword.2)
  else keyword

/-! ### Waiting for the end -/

/-- The request of a caller that waits: input data takes the place of standard input. A keyword
gives it where the caller does not. -/
def withInput (r : Request) (input : Value) : Except Error Request :=
  let input := if input.isNull then (Dict.get? r.keywords "input").getD .null else input
  let r := { r with keywords := Dict.put r.keywords "input" input }
  match input.bare with
  | .null => .ok r
  | .bytes _ => .ok { r with stdin := .null }
  | _ => .error (.fault .wrongType)

/-- The log that a process left: bytes, or a text where the runner was told how to read them. -/
inductive ProcessLog
  | bytes (data : List UInt8)
  | text (s : String)
  deriving DecidableEq, Repr

/-- The log that a process left, as text. -/
def decodeLog (log : Option ProcessLog) : Except Error (Option String) :=
  match log with
  | none => .ok none
  | some (.text s) => .ok (some s)
  | some (.bytes data) =>
    match String.fromUTF8? ⟨data.toArray⟩ with
    | some s => .ok (some s)
    | none => .error (.fault .notUtf8)

/-- The lines of a log that a process left, if it left any text. -/
def logLines (log : Option String) : Option Numbered :=
  match log with
  | none => none
  | some s => if s.isEmpty then none else some (.ofTexts (ErrorLog.lines s))

/-- How a process ended: its return code and its log. -/
structure Ending where
  returnCode : Int := 0
  log : Option ProcessLog := none

/-- The wording of the failure of a process and the complaint in it, if it failed. -/
def failureOf (t : Texts) (captureLog : Value) (returnCode : Int) (log : Option String) :
    Except Error (Option (String × Value)) :=
  if returnCode == 0 then .ok none
  else
    let shown := match captureLog with
      | .null => true
      | _ => false
    (ErrorLog.failureWording t (logLines log) shown).map some

/-! ### Going on meanwhile -/

/-- The keywords of the process runner that belong to the launcher. -/
def protectedKeywords : List String :=
  ["executable", "close_fds", "shell", "universal_newlines", "pass_fds", "encoding", "errors",
    "text", "pipesize"]

/-- A signal that a caller sends to the process. -/
inductive Signal
  | interrupt
  | terminate
  | kill
  | number (n : Int)
  deriving DecidableEq, Repr

/-- The number of a signal. -/
def Signal.code : Signal → Int
  | interrupt => 2
  | terminate => 15
  | kill => 9
  | number n => n

/-- What happens after a process has ended. -/
inductive ExitStep
  /-- A listener is told the return code. -/
  | told (listener : Nat) (returnCode : Int)
  | logClosed
  deriving DecidableEq, Repr

/-- How many listeners wait for the end of a process: those of the call, or else those that a
keyword gives. No value can be told anything, so the first one that a keyword gives fails and
nothing happens after it; a keyword is not looked at where nobody waits. -/
def listeners? (o : Objects) (r : Request) (listeners : Option Nat) (keyword : Value) :
    Except Error (Option Nat) :=
  match listeners with
  | some n => .ok (some n)
  | none =>
    if keyword.isNull || !(r.progressFile.isSome || o.truth r.capture || o.truth keyword) then
      .ok (some 0)
    else (o.elements keyword).map fun items => if items.isEmpty then some 0 else none

/-- What happens after a process has ended, for so many listeners. A log that is captured through a
pipe is closed after them. -/
def exitSteps (o : Objects) (r : Request) (listeners : Nat) (returnCode : Int) : List ExitStep :=
  let closes := o.truth r.capture && Handle.pipe.isMeant (stderrValue o r)
  (List.range listeners).map (ExitStep.told · returnCode) ++ (if closes then [.logClosed] else [])

end Launch

end MediaCommand
