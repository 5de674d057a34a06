/-
The two texts of a value: the plain one, which goes into arguments, and the shown one, which
goes into messages and stands for the items of a container.

They differ for texts and paths, which are shown in quotes, and for arities and objects.  What
an object is called depends on the whole session, so it is a parameter here.

A container that is reached again while its own items are being written is left out, and dots stand
in its place.  It is known again by its mark.
-/
import MediaCommand.Error
import MediaCommand.Number.Shortest
import MediaCommand.Text.Quoted

namespace MediaCommand

/-- How the objects inside values are written, given the marks of the containers around them. -/
structure Texts where
  plainWithin : List Nat → Object → Except Error String
  shownWithin : List Nat → Object → Except Error String
  /-- The items of an object that is a sequence. -/
  items? : Object → Option (List Value)
  /-- The marks of the containers whose items are being written. -/
  within : List Nat := []

namespace Texts

/-- The plain text of an object. -/
def plain (t : Texts) (o : Object) : Except Error String := t.plainWithin t.within o

/-- The shown text of an object. -/
def shown (t : Texts) (o : Object) : Except Error String := t.shownWithin t.within o

/-- How what stands inside a container with a mark is written. -/
def inside (t : Texts) (mark : Nat) : Texts := { t with within := mark :: t.within }

end Texts

/-- Items in brackets. -/
def bracketed (opening closing : String) (items : List String) : String :=
  opening ++ ", ".intercalate items ++ closing

namespace Value

/-- The count of an arity as shown. -/
def shownCount : Arity → String
  | .fixed n => toString n
  | .unbounded => "None"

/-- What stands in the place of a container inside itself. -/
def elided : Value → String
  | .list _ => "[...]"
  | .tuple _ => "(...)"
  | _ => "\x7b...\x7d"

mutual

/-- The shown text of a value. -/
def shown (t : Texts) : Value → Except Error String
  | .null => .ok "None"
  | .bool b => .ok (if b then "True" else "False")
  | .int n => .ok (toString n)
  | .text s => .ok (Text.quoted s)
  | .float x => .ok x.text
  | .list items => do return bracketed "[" "]" (← shownItems t items)
  | .tuple items => do
    match ← shownItems t items with
    | [item] => return "(" ++ item ++ ",)"
    | texts => return bracketed "(" ")" texts
  | .dict entries => do return bracketed "\x7b" "\x7d" (← shownEntries t entries)
  | .bytes data => .ok (Text.quotedBytes data)
  | .path p => .ok ("PurePosixPath(" ++ Text.quoted p ++ ")")
  | .arity a => .ok ("Arity(count=" ++ shownCount a ++ ")")
  | .object o => t.shown o
  | .marked mark v => if t.within.contains mark then .ok v.elided else shown (t.inside mark) v

/-- The shown texts of items. -/
def shownItems (t : Texts) : List Value → Except Error (List String)
  | [] => .ok []
  | v :: rest => do
    let head ← shown t v
    return head :: (← shownItems t rest)

/-- The shown texts of entries. -/
def shownEntries (t : Texts) : List (Value × Value) → Except Error (List String)
  | [] => .ok []
  | (k, v) :: rest => do
    let key ← shown t k
    let value ← shown t v
    return (key ++ ": " ++ value) :: (← shownEntries t rest)

end

/-- The plain text of a value. -/
def plain (t : Texts) : Value → Except Error String
  | .text s => .ok s
  | .path p => .ok p
  | .arity a => .ok a.text
  | .object o => t.plain o
  | .marked mark v =>
    match v with
    | .path _ => plain t v
    | .arity _ => plain t v
    | _ => shown t (.marked mark v)
  | v => shown t v

/-- The plain texts of values. -/
def plainAll (t : Texts) (vs : List Value) : Except Error (List String) := vs.mapM (plain t)

end Value

/-- The plain text of an argument. -/
def Argument.plain : Argument → String
  | .text s => s
  | .raw data _ => Text.quotedBytes data

/-- The shown text of an argument. -/
def Argument.shown : Argument → String
  | .text s => Text.quoted s
  | .raw data _ => Text.quotedBytes data

/-- The plain text of a file, which may be none. -/
def plainUrl : Option Argument → String
  | some a => a.plain
  | none => "None"

/-- The shown text of a file, which may be none. -/
def shownUrl : Option Argument → String
  | some a => a.shown
  | none => "None"

end MediaCommand
