/-
A value as items under numbers.

Calls that take lines or arguments ask for them by number, and for the last ones by numbers below
zero.  A sequence has its items under these numbers.  A dictionary is asked for the number as a
key, so it stands for a sequence as far as its keys are the numbers asked for; but a stretch of
items can only be cut out of a sequence.

What is found under a number may be a value of any kind, and it counts as a text only when it is
used as one.
-/
import MediaCommand.Error

namespace MediaCommand

/-- Items under numbers. -/
inductive Numbered
  | items (items : List Value)
  | entries (entries : List (Value × Value))

namespace Numbered

/-- Texts as items. -/
def ofTexts (texts : List String) : Numbered := .items (texts.map .text)

/-- How many items there are. -/
def size : Numbered → Nat
  | items vs => vs.length
  | entries es => es.length

/-- The item of a list at an index, counted from the end if it is negative. -/
def itemAt (items : List Value) (index : Int) : Except Error Value :=
  let i := if index < 0 then index + items.length else index
  if i < 0 then .error (.fault .noSuchIndex)
  else
    match items[i.toNat]? with
    | some v => .ok v
    | none => .error (.fault .noSuchIndex)

/-- The item under a number. -/
def item (n : Numbered) (number : Int) : Except Error Value :=
  match n with
  | items vs => itemAt vs number
  | entries es =>
    match Dict.get? es (.int number) with
    | some v => .ok v
    | none => .error (.fault .noSuchKey)

/-- All items in the order of their numbers; each is there or is a failure of its own. -/
def all (n : Numbered) : List (Except Error Value) :=
  match n with
  | items vs => vs.map .ok
  | entries es => (List.range es.length).map fun (i : Nat) => item (.entries es) i

/-- The items without the first ones. -/
def drop (n : Numbered) (count : Nat) : Except Error (List Value) :=
  match n with
  | items vs => .ok (vs.drop count)
  | entries _ => .error (.fault .wrongType)

/-- The last items. -/
def takeLast (n : Numbered) (count : Nat) : Except Error (List Value) :=
  match n with
  | items vs => .ok (vs.drop (vs.length - count))
  | entries _ => .error (.fault .wrongType)

end Numbered

namespace Value

/-- The text of a value that is asked how it begins or ends. Bytes can be asked that as well, but
not about a text. -/
def asked (v : Value) : Except Error String :=
  match v.bare with
  | .text s => .ok s
  | .bytes _ => .error (.fault .wrongType)
  | _ => .error (.fault .noSuchAttribute)

/-- The text of a value that is put together with texts or searched for a pattern. -/
def asText : Value → Except Error String
  | .text s => .ok s
  | _ => .error (.fault .wrongType)

end Value

end MediaCommand
