/-
Values that callers pass in: what options are set to, and everything else an argument may turn
out to be.

Options hold values of any kind and wrong arguments are reported with their kind and text, so
the kinds are told apart to the end.  Objects of the session are values too; a value only holds
their identity.  Other values that are made anew each time they are given carry a mark, so that the
very same one is known again wherever it went.

Equality is that of the things denoted: a truth value equals the number it stands for, a whole
number equals the floating-point number of the same size, dictionaries ignore order, an arity
equals the tuple of its count.  What is no number is equal to nothing, but a collection still knows
the very same one again.
-/
import MediaCommand.Arity
import MediaCommand.Number.Double

namespace MediaCommand

/-- The kinds of objects a session holds. -/
inductive Kind
  | filter
  | chain
  | graph
  | input
  | output
  | specifier
  | command
  deriving DecidableEq, Repr

/-- The identity of an object of one kind: its place among them, in order of creation. -/
structure Id (kind : Kind) where
  index : Nat
  deriving DecidableEq, Repr

abbrev FilterId := Id .filter
abbrev ChainId := Id .chain
abbrev GraphId := Id .graph
abbrev InputId := Id .input
abbrev OutputId := Id .output
abbrev SpecifierId := Id .specifier
abbrev CommandId := Id .command

/-- The identity of an object of any kind. -/
inductive Object
  | filter (id : FilterId)
  | chain (id : ChainId)
  | graph (id : GraphId)
  | input (id : InputId)
  | output (id : OutputId)
  | specifier (id : SpecifierId)
  | command (id : CommandId)
  deriving DecidableEq, Repr

/-- A value. -/
inductive Value
  | null
  | bool (b : Bool)
  | int (n : Int)
  | text (s : String)
  | float (x : Double)
  | list (items : List Value)
  | tuple (items : List Value)
  | dict (entries : List (Value × Value))
  | bytes (data : List UInt8)
  | path (p : String)
  | arity (a : Arity)
  | object (o : Object)
  /-- A value with the mark by which it is known again. -/
  | marked (mark : Nat) (v : Value)
  deriving Inhabited

namespace Value

/-- The value without its mark. -/
def bare : Value → Value
  | .marked _ v => bare v
  | v => v

/-- Whether the value is nothing. -/
def isNull : Value → Bool
  | .null => true
  | _ => false

/-- The mark of the bytes that are one byte, which are kept once. -/
def byteMark (b : UInt8) : Nat := b.toNat + 1

/-- The first mark that is not the mark of a constant. Number zero is that of the open arity. -/
def firstMark : Nat := 257

/-- The mark of a value. -/
def mark? : Value → Option Nat
  | .marked mark _ => some mark
  | .bytes [b] => some (byteMark b)
  | _ => none

/-- Whether two values carry the same mark. -/
def sameMark (v w : Value) : Bool :=
  match v.mark?, w.mark? with
  | some m, some n => m == n
  | _, _ => false

/-- A number, whatever kind of value it comes as. -/
inductive Number
  | whole (n : Int)
  | floating (x : Double)

/-- The number that a value stands for. -/
def number? : Value → Option Number
  | .bool b => some (.whole (if b then 1 else 0))
  | .int n => some (.whole n)
  | .float x => some (.floating x)
  | .marked _ v => number? v
  | _ => none

/-- Equality of numbers. -/
def Number.equals : Number → Number → Bool
  | .whole m, .whole n => m == n
  | .whole n, .floating x => x.equalsInt n
  | .floating x, .whole n => x.equalsInt n
  | .floating x, .floating y => x.equals y

/-- Whether the value is the count of an arity. -/
def isCount (v : Value) : Arity → Bool
  | .unbounded => match v with
    | .null => true
    | _ => false
  | .fixed n => match v.number? with
    | some m => m.equals (.whole n)
    | none => false

/-- Equality of two values none of which is a container. -/
def equalAtoms : Value → Value → Bool
  | .null, .null => true
  | .text s, .text t => s == t
  | .bytes s, .bytes t => s == t
  | .path p, .path q => p == q
  | .arity a, .arity b => a == b
  | .object o, .object p => o == p
  | v, w => match v.number?, w.number? with
    | some m, some n => m.equals n
    | _, _ => false

mutual

/-- Equality of values. Objects are equal to themselves only. -/
def equal : Value → Value → Bool
  | .marked _ v, w => equal v w
  | .list xs, w => match w.bare with
    | .list ys => equalItems xs ys
    | _ => false
  | .tuple xs, w => match w.bare, xs with
    | .tuple ys, _ => equalItems xs ys
    | .arity a, [x] => isCount x a
    | _, _ => false
  | .arity a, w => match w.bare with
    | .tuple [y] => isCount y a
    | w => equalAtoms (.arity a) w
  | .dict xs, w => match w.bare with
    | .dict ys => xs.length == ys.length && equalEntries xs ys
    | _ => false
  | v, w => equalAtoms v w.bare

/-- Equality of sequences, item by item; the very same item counts as equal. -/
def equalItems : List Value → List Value → Bool
  | [], [] => true
  | x :: xs, y :: ys => (sameMark x y || equal x y) && equalItems xs ys
  | _, _ => false

/-- Whether every entry of the first dictionary has an equal one in the second. -/
def equalEntries : List (Value × Value) → List (Value × Value) → Bool
  | [], _ => true
  | (k, v) :: rest, ys =>
    (match ys.find? fun e => sameMark k e.1 || equal k e.1 with
      | some e => sameMark v e.2 || equal v e.2
      | none => false) && equalEntries rest ys

end

/-- Whether a collection that holds one value is found to hold the other: the very same one or an
equal one. -/
def alike (v w : Value) : Bool := sameMark v w || equal v w

instance : BEq Value := ⟨equal⟩

mutual

/-- Whether the value may be a key. Filters hold their options and may not. -/
def isHashable : Value → Bool
  | .list _ => false
  | .dict _ => false
  | .object (.filter _) => false
  | .tuple items => allHashable items
  | .marked _ v => isHashable v
  | _ => true

/-- Whether all values may be keys. -/
def allHashable : List Value → Bool
  | [] => true
  | v :: rest => isHashable v && allHashable rest

end

/-- The name of the kind of a value, as messages give it. -/
def typeName : Value → String
  | .null => "NoneType"
  | .bool _ => "bool"
  | .int _ => "int"
  | .text _ => "str"
  | .float _ => "float"
  | .list _ => "list"
  | .tuple _ => "tuple"
  | .dict _ => "dict"
  | .bytes _ => "bytes"
  | .path _ => "PurePosixPath"
  | .arity _ => "Arity"
  | .object (.filter _) => "Filter"
  | .object (.chain _) => "Chain"
  | .object (.graph _) => "Graph"
  | .object (.input _) => "Input"
  | .object (.output _) => "Output"
  | .object (.specifier _) => "StreamSpecifier"
  | .object (.command _) => "Command"
  | .marked _ v => typeName v

/-- The count of an arity as a value. -/
def ofCount : Arity → Value
  | .fixed n => .int n
  | .unbounded => .null

/-- The bytes of a byte string as values. -/
def ofBytes (data : List UInt8) : List Value := data.map fun b => .int b.toNat

mutual

/-- The objects that a value holds. -/
def objects : Value → List Object
  | .object o => [o]
  | .list items => itemObjects items
  | .tuple items => itemObjects items
  | .dict entries => entryObjects entries
  | .marked _ v => objects v
  | _ => []

/-- The objects that the items of a sequence hold. -/
def itemObjects : List Value → List Object
  | [] => []
  | v :: rest => objects v ++ itemObjects rest

/-- The objects that the entries of a dictionary hold. -/
def entryObjects : List (Value × Value) → List Object
  | [] => []
  | (k, v) :: rest => objects k ++ objects v ++ entryObjects rest

end

mutual

/-- How many containers there are in a value. -/
def containerCount : Value → Nat
  | .list items => itemContainerCount items + 1
  | .tuple items => itemContainerCount items + 1
  | .dict entries => entryContainerCount entries + 1
  | .marked _ v => containerCount v
  | _ => 0

/-- How many containers there are in the items of a sequence. -/
def itemContainerCount : List Value → Nat
  | [] => 0
  | v :: rest => containerCount v + itemContainerCount rest

/-- How many containers there are in the entries of a dictionary. -/
def entryContainerCount : List (Value × Value) → Nat
  | [] => 0
  | (k, v) :: rest => containerCount k + containerCount v + entryContainerCount rest

end

mutual

/-- The value with a value in the place of every object. -/
def bindObjects (f : Object → Value) : Value → Value
  | .object o => f o
  | .list items => .list (bindItemObjects f items)
  | .tuple items => .tuple (bindItemObjects f items)
  | .dict entries => .dict (bindEntryObjects f entries)
  | .marked mark v => .marked mark (bindObjects f v)
  | v => v

/-- The items with a value in the place of every object. -/
def bindItemObjects (f : Object → Value) : List Value → List Value
  | [] => []
  | v :: rest => bindObjects f v :: bindItemObjects f rest

/-- The entries with a value in the place of every object. -/
def bindEntryObjects (f : Object → Value) : List (Value × Value) → List (Value × Value)
  | [] => []
  | (k, v) :: rest => (bindObjects f k, bindObjects f v) :: bindEntryObjects f rest

end

end Value

/-! ### Dictionaries

A dictionary is the list of its entries in the order in which the keys came. -/

namespace Dict

/-- Sets a key: in its place if the key is there, at the end otherwise. -/
def put {α β : Type} [BEq α] (d : List (α × β)) (k : α) (v : β) : List (α × β) :=
  match d with
  | [] => [(k, v)]
  | (k', v') :: rest => if k' == k then (k', v) :: rest else (k', v') :: put rest k v

/-- The value of a key. -/
def get? {α β : Type} [BEq α] (d : List (α × β)) (k : α) : Option β :=
  (d.find? fun e => e.1 == k).map (·.2)

/-- Sets the keys of the second dictionary in the first, in order. -/
def update {α β : Type} [BEq α] (d e : List (α × β)) : List (α × β) :=
  e.foldl (fun d entry => put d entry.1 entry.2) d

/-- The dictionary of a list of entries; the last entry of a key wins and the first fixes its
place. -/
def ofList {α β : Type} [BEq α] (entries : List (α × β)) : List (α × β) := update [] entries

end Dict

end MediaCommand
