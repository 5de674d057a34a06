/-
The order of values.

Numbers are ordered by size whatever kind of value they come as, texts by code points, bytes by
their numbers, paths part by part, and tuples, arities among them, by the first place in which they
differ.  Values of different kinds have no order, and neither have objects, so a list of values can
be put in order only if any two of them can be compared.
-/
import MediaCommand.Value.Basic
import MediaCommand.Value.Path

namespace MediaCommand.Value

/-! ### Numbers -/

-- Powers are the ones that come with the numbers, whatever other structure is known on these.
attribute [local instance (high)] instPowNat

/-- A finite number in the least unit of floating-point numbers. -/
def Number.units : Number → Int
  | .whole n => n * 2 ^ (-Double.minExponent).toNat
  | .floating x => x.units

/-- Whether one number is less than another. What is no number is less than nothing. -/
def Number.less : Number → Number → Bool
  | .floating .nan, _ => false
  | _, .floating .nan => false
  | .floating (.infinite negative), .floating (.infinite negative') => negative && !negative'
  | .floating (.infinite negative), _ => negative
  | _, .floating (.infinite negative) => !negative
  | x, y => x.units < y.units

/-! ### Sequences -/

/-- Whether one list comes before another: where they first differ the number is less, or the first
list ends. -/
def listLess : List Nat → List Nat → Bool
  | [], ys => !ys.isEmpty
  | _ :: _, [] => false
  | x :: xs, y :: ys => x < y || (x == y && listLess xs ys)

/-- The parts of a path one after the other, its root first, with a number between them that is less
than that of any character. -/
def pathKey (p : String) : List Nat :=
  let cs := p.toList
  let root := FilePath.root cs
  let parts := (if root.isEmpty then [] else [root]) ++ FilePath.parts cs
  List.intercalate [0] (parts.map fun part => part.map fun c => c.toNat + 1)

/-- Whether one value is less than another, if they have an order and neither is a container. -/
def lessAtoms? : Value → Value → Option Bool
  | .text s, .text t => some (listLess (s.toList.map Char.toNat) (t.toList.map Char.toNat))
  | .bytes s, .bytes t => some (listLess (s.map UInt8.toNat) (t.map UInt8.toNat))
  | .path p, .path q => some (listLess (pathKey p) (pathKey q))
  | v, w =>
    match v.number?, w.number? with
    | some m, some n => some (m.less n)
    | _, _ => none

/-- The items of a value that is ordered as a tuple. -/
def tupleItems? (v : Value) : Option (List Value) :=
  match v.bare with
  | .tuple items => some items
  | .arity a => some [ofCount a]
  | _ => none

/-- Whether an arity is less than a tuple with the given items, if they have an order. -/
def lessCount? (a : Arity) : List Value → Option Bool
  | [] => some false
  | y :: ys => if alike (ofCount a) y then some (!ys.isEmpty) else lessAtoms? (ofCount a) y.bare

mutual

/-- Whether one value is less than another, if they have an order. -/
def less? : Value → Value → Option Bool
  | .marked _ v, w => less? v w
  | .arity a, w => w.tupleItems?.bind (lessCount? a)
  | .tuple xs, w => w.tupleItems?.bind fun ys => lessItems? xs ys
  | v, w => lessAtoms? v w.bare

/-- Whether one sequence is less than another, if the first items that differ have an order. -/
def lessItems? : List Value → List Value → Option Bool
  | [], ys => some (!ys.isEmpty)
  | _ :: _, [] => some false
  | x :: xs, y :: ys => if alike x y then lessItems? xs ys else less? x y

end

/-! ### Sorting -/

/-- Whether every value can be compared with those after it. -/
def comparable : List Value → Bool
  | [] => true
  | v :: rest => rest.all (fun w => (less? v w).isSome) && comparable rest

/-- The values in order, if any two of them can be compared. -/
def sorted? (vs : List Value) : Option (List Value) :=
  if comparable vs then some (vs.mergeSort fun v w => less? w v != some true) else none

end MediaCommand.Value
