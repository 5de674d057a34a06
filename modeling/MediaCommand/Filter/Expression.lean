/-
The expression of a filter: its name, and after an equals sign its options between colons.

A value is written once escaped: the characters that separate options, filters and quotations
take a backslash, and so does the backslash.  An option set to nothing is its key alone.  A
sequence is its items between bars, and a truth value is a word.
-/
import MediaCommand.Filter.Basic
import MediaCommand.Value.Text

namespace MediaCommand.Expression

/-- The characters that take a backslash in a value. -/
def isSpecial (c : Char) : Bool := c == '\'' || c == ':' || c == '\\' || c == ','

/-- The characters of a value, once escaped. -/
def escapeChars (cs : List Char) : List Char :=
  cs.flatMap fun c => if isSpecial c then ['\\', c] else [c]

/-- A value, once escaped. -/
def escape (s : String) : String := String.ofList (escapeChars s.toList)

/-- The items of a value that is a sequence but no text. -/
def sequence? (t : Texts) (v : Value) : Option (List Value) :=
  match v.bare with
  | .list items => some items
  | .tuple items => some items
  | .bytes data => some (Value.ofBytes data)
  | .arity a => some [Value.ofCount a]
  | .object o => t.items? o
  | _ => none

/-- The text of an option value before it is escaped. -/
def rawValue (t : Texts) (v : Value) : Except Error String :=
  match v with
  | .bool b => .ok (if b then "true" else "false")
  | _ =>
    match sequence? t v with
    | some items => do return "|".intercalate (← Value.plainAll t items)
    | none => v.plain t

/-- An option value. -/
def value (t : Texts) (v : Value) : Except Error String := do return escape (← rawValue t v)

/-- One option. -/
def option (t : Texts) (key : String) (v : Value) : Except Error String :=
  match v with
  | .null => .ok key
  | _ => do return key ++ "=" ++ (← value t v)

/-- All options. -/
def options (t : Texts) (entries : List (String × Value)) : Except Error String := do
  return ":".intercalate (← entries.mapM fun (k, v) => option t k v)

/-- A filter. -/
def filter (t : Texts) (name : String) (entries : List (String × Value)) : Except Error String :=
  if entries.isEmpty then .ok name else do return name ++ "=" ++ (← options t entries)

/-! ### Labels -/

/-- The characters between the brackets of a label in brackets. -/
def inBrackets? (cs : List Char) : Option (List Char) :=
  match cs with
  | '[' :: rest =>
    let body := if rest.getLast? == some '\n' then rest.dropLast else rest
    if body.getLast? == some ']' && !body.contains '\n' then some body.dropLast else none
  | _ => none

/-- A label in brackets; one that is in brackets already stays. -/
def bracket (label : String) : String :=
  if (inBrackets? label.toList).isSome then label else "[" ++ label ++ "]"

end MediaCommand.Expression

/-- The expression of a filter. -/
def MediaCommand.Filter.expression (t : Texts) (f : Filter) : Except MediaCommand.Error String :=
  MediaCommand.Expression.filter t f.name f.options
