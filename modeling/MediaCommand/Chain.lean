/-
Chains of filters in series.

The pads of a chain are the input pads of its first filter and the output pads of its last one.
A chain records which specifiers feed its inputs, which of its output pads specifiers refer to,
which pads are mapped to an output and which feed another chain, and where in a graph it stands.

References are kept as the list of the pads referred to, one entry for each specifier, so that
counting them and forgetting one are operations on a list.  A pad can be marked as mapped by any
value that equals its index, and the mark is kept as it was given.
-/
import MediaCommand.Filter.Basic
import MediaCommand.Text.Digit

namespace MediaCommand

/-- Filters in series and what is known about their pads. -/
structure Chain where
  filters : List Filter
  nonempty : filters ≠ []
  /-- The streams bound to the input pads, in pad order. -/
  inputs : List Specifier := []
  /-- The output pads that specifiers refer to, one entry for each specifier. -/
  references : List Nat := []
  /-- The marks of the output pads mapped to an output. -/
  mapped : List Value := []
  /-- The output pads that feed another chain. -/
  bound : List Nat := []
  /-- The place in a graph. -/
  position : Option Nat := none

namespace Chain

/-- The filter whose input pads are those of the chain. -/
def first (c : Chain) : Filter := c.filters.head c.nonempty

/-- The filter whose output pads are those of the chain. -/
def last (c : Chain) : Filter := c.filters.getLast c.nonempty

/-- The number of input pads. -/
def inputArity (c : Chain) : Arity := c.first.inputArity

/-- The number of output pads. -/
def outputArity (c : Chain) : Arity := c.last.outputArity

/-- How many specifiers refer to an output pad. -/
def consumers (c : Chain) (pad : Nat) : Nat := c.references.count pad

/-- Whether an output pad is mapped to an output. -/
def isMapped (c : Chain) (pad : Int) : Bool := c.mapped.any (·.equal (.int pad))

/-- Whether an output pad feeds another chain. -/
def isBound (c : Chain) (pad : Int) : Bool := c.bound.any fun p => (p : Int) == pad

/-- Whether an output pad is taken. -/
def isConsumed (c : Chain) (pad : Int) : Bool := c.isMapped pad || c.isBound pad

/-- Records one more specifier on a pad. -/
def addReference (c : Chain) (pad : Nat) : Chain := { c with references := pad :: c.references }

/-- Forgets one specifier on a pad. -/
def removeReference (c : Chain) (pad : Nat) : Chain :=
  { c with references := c.references.erase pad }

/-- Records a mark of a mapped pad. -/
def addMark (c : Chain) (mark : Value) : Chain := { c with mapped := mark :: c.mapped }

/-- Takes back that a pad is mapped. -/
def removeMapped (c : Chain) (pad : Int) : Chain :=
  { c with mapped := c.mapped.eraseP (·.equal (.int pad)) }

/-- Records that a pad feeds another chain. -/
def addBound (c : Chain) (pad : Nat) : Chain :=
  { c with bound := if c.bound.contains pad then c.bound else pad :: c.bound }

/-- How many output pads carry a label: none if no pad is referred to, else all of them up to
the last one referred to, because labels are dealt out in pad order. -/
def labeledCount (c : Chain) : Nat := c.references.foldl (fun n pad => max n (pad + 1)) 0

/-- The output pads that carry a label. -/
def labeledPads (c : Chain) : List Nat := List.range c.labeledCount

/-- Adds filters at the end. -/
def append (c : Chain) (fs : List Filter) : Chain :=
  { c with
    filters := c.filters ++ fs
    nonempty := fun h => c.nonempty (List.append_eq_nil_iff.mp h).1 }

/-- Adds filters in front. -/
def prepend (c : Chain) (fs : List Filter) : Chain :=
  { c with
    filters := fs ++ c.filters
    nonempty := fun h => c.nonempty (List.append_eq_nil_iff.mp h).2 }

/-! ### Choosing an output pad -/

/-- Whether no specifier refers to the pad and no output takes it. -/
def isFree (c : Chain) (pad : Nat) : Bool := !c.isMapped pad && c.consumers pad == 0

/-- The least free pad. As many pads as there are entries in both records cannot all be taken
when one more is looked at. -/
def firstFree (c : Chain) : Nat :=
  let bound := c.mapped.length + c.references.length
  ((List.range (bound + 1)).find? c.isFree).getD bound

/-- The pad chosen when none is named. -/
def defaultPad (id : ChainId) (c : Chain) : Except Error Nat :=
  let pad := c.firstFree
  if c.outputArity.hasPad pad then .ok pad
  else if c.outputArity == .fixed 0 then .error (.noOutputPad c.last.name)
  else .error (.padTaken id .null)

/-- The pad with an index, if the chain has it. -/
def padAt (c : Chain) (index : Int) : Except Error Nat :=
  if c.outputArity.hasPad index then .ok index.toNat
  else .error (.padOutOfRange index c.last.name c.outputArity)

/-- The pad that a value selects: none named, an index, or digits. Digits that stand in no decimal
numeral are taken for digits but cannot be read. -/
def resolvePad (id : ChainId) (c : Chain) (selector : Value) : Except Error Nat :=
  match selector with
  | .null => c.defaultPad id
  | .int n => c.padAt n
  | .text s =>
    let cs := s.toList
    if !cs.isEmpty && cs.all Text.isDigitLike then
      match Text.decimalNat? cs with
      | some n => c.padAt n
      | none => .error (.fault .wrongValue)
    else .error (.padSelector selector)
  | _ => .error (.padSelector selector)

end Chain

end MediaCommand
