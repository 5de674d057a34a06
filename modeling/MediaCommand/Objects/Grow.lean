/-
Putting items at the end of a list.

Callers may hold on to a list after they gave it as an option, and put more items at its end.  It
is the same list everywhere, so the filters, files and commands that hold it hold the longer one
from then on.  Nothing else about them changes, and no other kind of value takes more items.
-/
import MediaCommand.Objects.Basic
import MediaCommand.Value.Mark

namespace MediaCommand.Objects

/-- Options after a value in them has changed. -/
def renewOptions (new : Value) (options : List (String × Value)) : List (String × Value) :=
  options.map fun e => (e.1, e.2.renewed new)

/-- A filter after a value among its options has changed. -/
def renewFilter (new : Value) (f : Filter) : Filter :=
  { f with options := renewOptions new f.options }

/-- A chain after a value among the options of its filters has changed. -/
def renewChain (new : Value) (c : Chain) : Chain :=
  { c with
    filters := c.filters.map (renewFilter new)
    nonempty := fun h => c.nonempty (List.map_eq_nil_iff.mp h) }

/-- The objects after a value in their options has changed. -/
def renew (o : Objects) (new : Value) : Objects :=
  { o with
    filters := o.filters.map (renewFilter new)
    chains := o.chains.map (renewChain new)
    inputs := o.inputs.map fun i => { i with options := renewOptions new i.options }
    outputs := o.outputs.map fun out => { out with options := renewOptions new out.options }
    commands := o.commands.map fun c =>
      { c with options := c.options.map fun e => (e.1, e.2.renewed new) } }

/-- Puts what a loop over a value meets at the end of a list, and answers the list. -/
def extendList (o : Objects) (list items : Value) : Except Error (Objects × Value) :=
  match list with
  | .marked mark (.list old) => do
    let new := .marked mark (.list (old ++ (← o.elements items)))
    return (o.renew new, new)
  | _ => .error (.fault .noSuchAttribute)

end MediaCommand.Objects
