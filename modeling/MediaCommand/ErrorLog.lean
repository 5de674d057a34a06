/-
The line of a log that tells what went wrong.

The program writes its complaint near the end of its log, often one line above a general remark.
The last line decides how many lines belong together: a remark that only adds something is kept
behind the line before it, a remark that says nothing is replaced by that line.

A log is a text or is given line by line.  Lines that are given may be values of any kind, and
those that nothing is asked of need not be texts.
-/
import MediaCommand.Text.Blank
import MediaCommand.Text.Lines
import MediaCommand.Value.Numbered
import MediaCommand.Value.Text

namespace MediaCommand.ErrorLog

/-- The lines of a log. -/
def lines (log : String) : List String :=
  (Text.splitAtLineEnds (Text.trimEndChars log.toList)).map String.ofList

/-- Lines that belong together. -/
def together (ls : List String) : String := "\n  ".intercalate ls

/-- Whether a text begins with a phrase. -/
def begins (phrase s : String) : Bool := phrase.toList.isPrefixOf s.toList

/-- Whether a text ends with a phrase. -/
def ends (phrase s : String) : Bool := phrase.toList.isSuffixOf s.toList

/-- Whether the phrase for a wrong argument stands in the characters, after at least one
character and on the first line. -/
def namesInvalidArgument : List Char → Bool
  | [] => false
  | c :: rest =>
    c != '\n' && (": Invalid argument".toList.isPrefixOf rest || namesInvalidArgument rest)

/-! ### What the last line says -/

/-- What the last line of a log says about the lines before it. -/
inductive Remark
  /-- Nothing was asked of the program. -/
  | nothingAsked
  /-- An argument was wrong; which one is told before. -/
  | wrongArgument
  /-- It adds something to the line before. -/
  | addition
  /-- A file could not be opened. -/
  | opening
  /-- The options for all files could not be read. -/
  | globalOptions
  /-- The work failed; why is told before. -/
  | failed
  /-- A named argument was wrong. -/
  | namedArgument
  /-- It is the complaint itself. -/
  | complaint
  deriving DecidableEq, Repr

/-- What a last line says. -/
def Remark.ofLine (last : String) : Remark :=
  if last == "Use -h to get full help or, even better, run 'man ffmpeg'" then .nothingAsked
  else if last == "Invalid argument" then .wrongArgument
  else if last == "To ignore this, add a trailing '?' to the map."
      || last == "Filtering and streamcopy cannot be used together."
      || last == "FFmpeg cannot edit existing files in-place." then .addition
  else if begins "Error opening input files" last || begins "Error opening output file" last then
    .opening
  else if begins "Error splitting the argument list: " last then .addition
  else if begins "Error parsing global options:" last then .globalOptions
  else if last == "Conversion failed!" then .failed
  else if namesInvalidArgument last.toList then .namedArgument
  else .complaint

/-! ### The complaint -/

/-- The last lines that belong together; they have to be texts. -/
def lastTogether (log : Numbered) (count : Nat) : Except Error Value := do
  return .text (together (← (← log.takeLast count).mapM Value.asText))

/-- The last line behind the one before it. -/
def added (t : Texts) (before : Value) (last : String) : Except Error Value := do
  return .text (together [← before.plain t, last])

/-- The line before a last line that calls an argument wrong, behind the line before that if the
filters could not even be set up. -/
def wrongArgument (t : Texts) (log : Numbered) (before : Value) : Except Error Value :=
  match before with
  | .text s =>
    if s == "Error initializing complex filters." && 2 < log.size then do
      added t (← log.item (-3)) s
    else .ok before
  | _ => .ok before

/-- The complaint that a remark makes of the line before it. -/
def complaintBefore (t : Texts) (log : Numbered) (last : String) (before : Value) :
    Remark → Except Error Value
  | .wrongArgument => wrongArgument t log before
  | .addition => added t before last
  | .globalOptions => do
    if ends "Invalid argument" (← before.asked) then lastTogether log 3 else added t before last
  | .failed => .ok before
  | .namedArgument => do
    if begins "[lavfi " (← before.asked) then added t before last else return before
  | _ => .ok (.text last)

/-- The complaint that the last lines of a log make. A remark about the line before is the complaint
itself where there is no such line. -/
def complaint (t : Texts) (log : Numbered) : Except Error Value := do
  let last ← (← log.item (-1)).asked
  match Remark.ofLine last with
  | .nothingAsked => return .text "No ffmpeg command argument specified"
  | .opening => lastTogether log 2
  | .complaint => return .text last
  | remark =>
    if log.size < 2 then return .text last
    else complaintBefore t log last (← log.item (-2)) remark

/-- The complaint in the lines of a log. An unknown help topic is told on the first line. -/
def scan (t : Texts) (log : Numbered) : Except Error Value := do
  if log.size == 0 then return .text ""
  let first ← (← log.item 0).asked
  if begins "Unknown help option " first then return .text first else complaint t log

/-! ### Failures of the program -/

/-- The complaint of a failed program, given the lines of its log if it left one. -/
def failure (t : Texts) : Option Numbered → Except Error Value
  | none => .ok (.text "FFmpeg failed for unknown reason (no log available).")
  | some log => scan t log

/-- The wording of a failure that the caller has not seen the log of. -/
def failureText (complaint : String) : String :=
  "FFmpeg terminated abnormally with the error:\n\n  " ++ complaint ++
    "\n\nTo display the full FFmpeg log, run with \x60capture_log=False\x60."

/-- The wording of a failure whose log stands on the console. -/
def shownFailureText : String := "FFmpeg failed. Check its log printed above."

/-- The wording of a failure and the complaint in it. -/
def failureWording (t : Texts) (log : Option Numbered) (logShown : Bool) :
    Except Error (String × Value) := do
  let complaint ← failure t log
  if logShown then return (shownFailureText, .text "")
  return (failureText (← complaint.plain t), complaint)

end MediaCommand.ErrorLog
