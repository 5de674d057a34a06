/-
How many pads a filter has on one side.

The count is fixed or open.  An open side takes any number of pads and is written `N`.  A fixed
count is an integer and not a natural number because a count may be given unchecked;
`Objects.fixedArity` is the checked way, and a count below zero simply has no pad.
-/

namespace MediaCommand

/-- Number of pads on one side of a filter. -/
inductive Arity
  | fixed (count : Int)
  | unbounded
  deriving DecidableEq, Repr, Inhabited

namespace Arity

/-- Whether `n` pads fit. -/
def accepts (a : Arity) (n : Int) : Bool :=
  match a with
  | fixed count => n ≤ count
  | unbounded => true

/-- Whether there is a pad with the given index. -/
def hasPad (a : Arity) (index : Int) : Bool :=
  match a with
  | fixed count => 0 ≤ index && index < count
  | unbounded => 0 ≤ index

/-- Whether the count is open. -/
def isUnbounded (a : Arity) : Bool := a == unbounded

/-- The count as text. -/
def text : Arity → String
  | fixed count => toString count
  | unbounded => "N"

end Arity

end MediaCommand
