/-
Marks: knowing the very same value again.

Equal values can be told apart if each was made anew: two lists of the same items, two paths to the
same file, two floating-point values that are no number.  Such a value gets a mark when it enters
the session and keeps it wherever it is put.  Constants are kept once and need no mark, or have one
from the beginning: they are the same whenever they are equal.

A copy of a value is made anew as a whole, and what was one and the same in it is so in the copy.
When a list changes it keeps its mark, and so it can be exchanged for what it became wherever it
stands.
-/
import MediaCommand.Value.Basic

namespace MediaCommand.Value

/-! ### Giving marks -/

/-- The value with a mark if one is given. -/
def withMark (mark : Option Nat) (v : Value) : Value :=
  match mark with
  | some mark => .marked mark v
  | none => v

/-- Whether a value without a mark is a constant, which needs none. -/
def isConstant : Value → Bool
  | .list _ => false
  | .tuple items => items.isEmpty
  | .dict _ => false
  | .bytes data => data.length ≤ 1
  | .path _ => false
  | .arity _ => false
  | .float .nan => false
  | _ => true

/-- The value with the next mark unless it is a constant, and the next mark after it. -/
def markOne (next : Nat) (v : Value) : Value × Nat :=
  if v.isConstant then (v, next) else (.marked next v, next + 1)

mutual

/-- The value with marks on all its parts that have none, and the next mark after them. -/
def markAll (next : Nat) : Value → Value × Nat
  | .list items =>
    let (items, next) := markItems next items
    markOne next (.list items)
  | .tuple items =>
    let (items, next) := markItems next items
    markOne next (.tuple items)
  | .dict entries =>
    let (entries, next) := markEntries next entries
    markOne next (.dict entries)
  | v => markOne next v

/-- The items with marks. -/
def markItems (next : Nat) : List Value → List Value × Nat
  | [] => ([], next)
  | v :: rest =>
    let (v, next) := markAll next v
    let (rest, next) := markItems next rest
    (v :: rest, next)

/-- The entries with marks. -/
def markEntries (next : Nat) : List (Value × Value) → List (Value × Value) × Nat
  | [] => ([], next)
  | (k, v) :: rest =>
    let (k, next) := markAll next k
    let (v, next) := markAll next v
    let (rest, next) := markEntries next rest
    ((k, v) :: rest, next)

end

/-! ### Copying -/

mutual

/-- The value with other marks. -/
def remark (f : Nat → Nat) : Value → Value
  | .list items => .list (remarkItems f items)
  | .tuple items => .tuple (remarkItems f items)
  | .dict entries => .dict (remarkEntries f entries)
  | .marked mark v => .marked (f mark) (bare (remark f v))
  | .bytes [b] => .marked (f (byteMark b)) (.bytes [b])
  | v => v

/-- The items with other marks. -/
def remarkItems (f : Nat → Nat) : List Value → List Value
  | [] => []
  | v :: rest => remark f v :: remarkItems f rest

/-- The entries with other marks. -/
def remarkEntries (f : Nat → Nat) : List (Value × Value) → List (Value × Value)
  | [] => []
  | (k, v) :: rest => (remark f k, remark f v) :: remarkEntries f rest

end

/-! ### Exchanging -/

mutual

/-- The value in which what carries a mark is exchanged for another value. -/
def exchange (mark : Nat) (new : Value) : Value → Value
  | .list items => .list (exchangeItems mark new items)
  | .tuple items => .tuple (exchangeItems mark new items)
  | .dict entries => .dict (exchangeEntries mark new entries)
  | .marked m v => if m == mark then new else .marked m (exchange mark new v)
  | v => v

/-- The items after the exchange. -/
def exchangeItems (mark : Nat) (new : Value) : List Value → List Value
  | [] => []
  | v :: rest => exchange mark new v :: exchangeItems mark new rest

/-- The entries after the exchange. -/
def exchangeEntries (mark : Nat) (new : Value) : List (Value × Value) → List (Value × Value)
  | [] => []
  | (k, v) :: rest => (exchange mark new k, exchange mark new v) :: exchangeEntries mark new rest

end

/-- The value in which another one stands wherever one with its mark stood. -/
def renewed (v new : Value) : Value :=
  match new.mark? with
  | some mark => exchange mark new v
  | none => v

/-! ### The very same value -/

/-- Whether a whole number is small enough to be kept once. -/
def isSmall (n : Int) : Bool := -5 ≤ n && n ≤ 256

/-- Whether a text is short and plain enough to be kept once. -/
def isShort (s : String) : Bool :=
  match s.toList with
  | [] => true
  | [c] => c.toNat < 256
  | _ => false

/-- Whether two values are one and the same object or constant, or carry the same mark. -/
def identical : Value → Value → Bool
  | .object x, .object y => x == y
  | .null, .null => true
  | .bool a, .bool b => a == b
  | .int m, .int n => m == n && isSmall m
  | .text s, .text t => s == t && isShort s
  | .bytes [], .bytes [] => true
  | .tuple [], .tuple [] => true
  | v, w => sameMark v w

end MediaCommand.Value
