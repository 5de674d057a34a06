/-
Questions about the output pads of a chain, asked with values of any kind.

A value names the pad that it equals, so a truth value or a floating-point number may name one;
a value that may not be a key is refused.
-/
import MediaCommand.Objects.Connect
import MediaCommand.Objects.Text
import MediaCommand.Value.Order

namespace MediaCommand.Objects

/-- Refuses a value that may not be a key. -/
def checkKey (v : Value) : Except Error Unit :=
  if v.isHashable then .ok () else .error (.fault .wrongType)

/-- How many specifiers refer to the pad that a value names. -/
def consumersAt (o : Objects) (id : ChainId) (v : Value) : Except Error Nat := do
  let c ← o.chain id
  checkKey v
  return c.references.countP fun (pad : Nat) => v.equal (.int pad)

/-- Whether the pad that a value names is mapped to an output. -/
def isMappedAt (o : Objects) (id : ChainId) (v : Value) : Except Error Bool := do
  let c ← o.chain id
  checkKey v
  return o.isMarked c v

/-- Whether the pad that a value names feeds another chain. -/
def isBoundAt (o : Objects) (id : ChainId) (v : Value) : Except Error Bool := do
  let c ← o.chain id
  checkKey v
  return isFed c v

/-- Whether the pad that a value names is taken. -/
def isConsumedAt (o : Objects) (id : ChainId) (v : Value) : Except Error Bool := do
  return (← o.isMappedAt id v) || (← o.isBoundAt id v)

/-- The label of the pad that a value names, whether there is such a pad or not. -/
def padNameAt (o : Objects) (t : Texts) (id : ChainId) (v : Value) : Except Error String := do
  let c ← o.chain id
  let _ ← padLabel id c ""
  padLabel id c (← v.plain t)

/-- Pads in order, each once. -/
def padsInOrder (pads : List Nat) : List Nat := pads.eraseDups.mergeSort (· ≤ ·)

/-- The marks of the mapped pads in order, if they have an order. -/
def marksInOrder (c : Chain) : Except Error (List Value) :=
  match Value.sorted? c.mapped with
  | some marks => .ok marks
  | none => .error (.fault .wrongType)

/-- The output pad that a value selects. -/
def resolvePadAt (o : Objects) (id : ChainId) (selector : Value) : Except Error Nat := do
  (← o.chain id).resolvePad id selector

end MediaCommand.Objects
