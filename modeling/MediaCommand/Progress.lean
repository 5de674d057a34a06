/-
Progress reports.

The program writes its progress as lines of a key and a value and closes each block with a line
of its own, which says whether it was the last one.  The last equals sign that something follows
divides a line; a line without one says nothing.  A block holds the lines since the one that
closed the block before.

A listener is told each block when it is closed, and may ask to cancel the work, which is done once
at most.  A listener that fails asks for nothing and is told the next block all the same.
-/
import MediaCommand.Number.Literal
import MediaCommand.Text.Lines
import MediaCommand.Value.Basic

namespace MediaCommand.Progress

/-- A value of a report: a whole number, a decimal, or a text without blanks around it. -/
def value (s : String) : Value :=
  let cs := Text.trimChars s.toList
  match Literal.int? cs with
  | some n => .int n
  | none =>
    match Literal.double? cs with
    | some x => .float x
    | none => .text (String.ofList cs)

/-- What is told about the work so far: keys, which may be missing, and values. -/
abbrev Status := List (Option String × Value)

/-- A block and whether it is the last one. -/
structure Block where
  status : Status
  done : Bool

/-- The characters before and after the last equals sign that something follows. -/
def splitField? : List Char → Option (List Char × List Char)
  | [] => none
  | c :: rest =>
    match splitField? rest with
    | some (key, v) => some (c :: key, v)
    | none => if c == '=' && !rest.isEmpty then some ([], rest) else none

/-- The key of a line; an empty one is missing. -/
def keyOf (cs : List Char) : Option String := if cs.isEmpty then none else some (String.ofList cs)

/-- The lines of a report. -/
def lines (report : String) : List (List Char) :=
  Text.splitOnClass (· == '\n') (Text.uniformLineEnds report.toList)

/-! ### Telling a listener -/

/-- What a listener makes of a block. -/
inductive Answer
  | goOn
  | cancel
  | failure
  deriving DecidableEq, Repr

/-- How the listener answers the blocks, by their numbers. -/
structure Listener where
  /-- The blocks at which it asks to cancel. -/
  cancelOn : List Nat := []
  /-- The blocks at which it fails, whatever it would have answered. -/
  failOn : List Nat := []

/-- The answer to the block with a number. -/
def Listener.answer (l : Listener) (number : Nat) : Answer :=
  if l.failOn.contains number then .failure
  else if l.cancelOn.contains number then .cancel
  else .goOn

/-- What has come of a report so far. -/
structure Monitor where
  /-- What is told of the current block. -/
  status : Status := []
  /-- The blocks that the listener was told. -/
  told : List Block := []
  /-- Whether the work can be cancelled. It can be once. -/
  canCancel : Bool
  /-- How often it was cancelled. -/
  cancellations : Nat := 0

namespace Monitor

/-- Cancels the work if that is possible. -/
def cancel (m : Monitor) : Monitor :=
  if m.canCancel then { m with canCancel := false, cancellations := m.cancellations + 1 } else m

/-- Tells the listener the current block and begins the next one. The block is over whatever the
listener makes of it. -/
def tell (answer : Nat → Answer) (m : Monitor) (done : Bool) : Monitor :=
  let next := { m with status := [], told := m.told ++ [⟨m.status, done⟩] }
  match answer m.told.length with
  | .cancel => next.cancel
  | .goOn => next
  | .failure => next

/-- Reads a line. -/
def read (answer : Nat → Answer) (m : Monitor) (line : List Char) : Monitor :=
  match splitField? line with
  | none => m
  | some (key, v) =>
    if key == "progress".toList then m.tell answer (Text.trim (String.ofList v) == "end")
    else { m with status := Dict.put m.status (keyOf key) (value (String.ofList v)) }

end Monitor

/-- What comes of a report, read to its end. -/
def monitor (answer : Nat → Answer) (canCancel : Bool) (report : String) : Monitor :=
  (lines report).foldl (Monitor.read answer) { canCancel }

end MediaCommand.Progress
