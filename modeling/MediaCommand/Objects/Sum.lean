/-
The sum of two values.

Two filters add up to a chain, numbers to a number, and two sequences of one kind to the first
followed by the second.  A filter behind a tuple counts as the tuple of its parts; in front of
anything but a filter it has no sum.
-/
import MediaCommand.Objects.Build

namespace MediaCommand

namespace Value.Number

/-- A number as a floating-point number, if it is not too large. -/
def toDouble? : Number → Option Double
  | .whole n => Double.ofInt? n
  | .floating x => some x

/-- The sum of two numbers. -/
def add (m n : Number) : Except Error Value :=
  match m, n with
  | .whole m, .whole n => .ok (.int (m + n))
  | _, _ =>
    match m.toDouble?, n.toDouble? with
    | some x, some y => .ok (.float (x.add y))
    | _, _ => .error (.fault .tooLarge)

end Value.Number

namespace Objects

/-- The items of a value that counts as a tuple. -/
def tupleItems? (o : Objects) (v : Value) : Option (List Value) :=
  match v.bare with
  | .tuple _ => o.items? v
  | .arity _ => o.items? v
  | .object (.filter _) => o.items? v
  | _ => none

/-- The sum of two values when the first is no filter. A tuple or bytes to which nothing is added
stay what they are. -/
def sum (o : Objects) (a b : Value) : Except Error Value :=
  match a.bare, b.bare with
  | .text s, .text t => .ok (.text (s ++ t))
  | .bytes [], .bytes _ => .ok b
  | .bytes _, .bytes [] => .ok a
  | .bytes s, .bytes t => .ok (.bytes (s ++ t))
  | .list xs, .list ys => .ok (.list (xs ++ ys))
  | .tuple [], .tuple _ => .ok b
  | .tuple _, .tuple [] => .ok a
  | _, _ =>
    match a.number?, b.number? with
    | some m, some n => m.add n
    | _, _ =>
      match o.tupleItems? a, o.tupleItems? b with
      | some xs, some ys => .ok (.tuple (xs ++ ys))
      | _, _ => .error (.fault .wrongType)

/-- Adds two values. -/
def add (o : Objects) (a b : Value) : Except Error (Objects × Value) :=
  match a, b with
  | .object (.filter f), .object (.filter g) => do
    let (o, id) ← o.chainOf [← o.filter f, ← o.filter g]
    return (o, .object (.chain id))
  | .object (.filter _), _ => .error (.fault .wrongType)
  | _, _ => (o.sum a b).map fun v => (o, v)

end Objects

end MediaCommand
