/-
Stream selectors: which streams of an input are meant.

A selector is a line of parts between colons.  First come any number of restrictions (a media
type, a program, a group), then at most one primary part (an index, a stream id, a metadata tag,
or the mark for usable streams).  A field that is given twice keeps its first place and its last
value.

Any number can be written, but decimal numerals beyond a limit are refused; the limit is a
parameter, because the grammar itself has none.
-/
import MediaCommand.Text.Digit
import MediaCommand.Text.Lines

namespace MediaCommand.Selector

/-- What one item of a selector says. -/
inductive Field
  | mediaType (letter : String)
  | programId (n : Nat)
  | groupIndex (n : Nat)
  | groupId (n : Nat)
  | streamId (n : Nat)
  | index (n : Nat)
  | tag (key : String) (value : Option String)
  | usable
  deriving DecidableEq, Repr

/-- The name of the field that an item sets. -/
def Field.key : Field → String
  | mediaType _ => "media_type"
  | programId _ => "program_id"
  | groupIndex _ => "group_index"
  | groupId _ => "group_id"
  | streamId _ => "stream_id"
  | index _ => "index"
  | tag _ _ => "tag"
  | usable => "usable"

/-- Sets a field: in its place if it is there, at the end otherwise. -/
def put (found : List Field) (f : Field) : List Field :=
  match found with
  | [] => [f]
  | g :: rest => if g.key == f.key then f :: rest else g :: put rest f

/-- Why a selector is refused. -/
inductive Invalid
  | number (name text : String)
  | missing (what : String)
  | unknown (text : String)
  | unresolved (text : String)
  | metadata (text : String)
  | wrongType (typeName : String)
  | negativeIndex
  /-- A decimal numeral with too many digits. -/
  | tooLong (digits limit : Nat)
  deriving DecidableEq, Repr

/-- The wording of a refusal. -/
def Invalid.message : Invalid → String
  | number name text => "Invalid " ++ name ++ " (" ++ text ++ ")"
  | missing what => "Missing " ++ what
  | unknown text => "Unknown stream specifier: " ++ text
  | unresolved text => "Not all specifiers resolved: " ++ text
  | metadata text => "Invalid metadata tag specifier: " ++ text
  | wrongType typeName => "Invalid stream specifier type: " ++ typeName
  | negativeIndex => "Invalid stream specifier: negative index"
  | tooLong digits limit =>
    "Exceeds the limit (" ++ toString limit ++ " digits) for integer string conversion: " ++
      "value has " ++ toString digits ++
      " digits; use sys.set_int_max_str_digits() to increase the limit"

/-! ### Numbers

A number is written in base sixteen after `0x`, in base eight after any other zero, and in base ten
otherwise.  One line feed after it is let pass. -/

/-- The value of a digit in bases up to sixteen. -/
def digitValue? (c : Char) : Option Nat :=
  if c.isDigit then some (c.toNat - '0'.toNat)
  else if 'a' ≤ c && c ≤ 'f' then some (c.toNat - 'a'.toNat + 10)
  else if 'A' ≤ c && c ≤ 'F' then some (c.toNat - 'A'.toNat + 10)
  else none

/-- The value of digits of one base read after the value `acc`. -/
def readBase (base acc : Nat) : List Char → Option Nat
  | [] => some acc
  | c :: rest =>
    (digitValue? c).bind fun d => if d < base then readBase base (acc * base + d) rest else none

/-- The number that the characters write, as a whole. -/
def literal? : List Char → Option Nat
  | [] => none
  | '0' :: x :: rest =>
    if x == 'x' || x == 'X' then
      if rest.isEmpty then none else readBase 16 0 rest
    else readBase 8 0 (x :: rest)
  | cs => readBase 10 0 cs

/-- The characters without one line feed at their end. -/
def dropFinalLineFeed (cs : List Char) : List Char :=
  if cs.getLast? == some '\n' then cs.dropLast else cs

/-- The number in a part of a selector. -/
def number? (text : String) : Option Nat := literal? (dropFinalLineFeed text.toList)

/-- Refuses a decimal numeral with more digits than the limit. -/
def checkLength (limit : Option Nat) (text : String) : Except Invalid Unit :=
  let cs := dropFinalLineFeed text.toList
  match limit with
  | none => .ok ()
  | some most =>
    if cs.head? != some '0' && most < cs.length then .error (.tooLong cs.length most) else .ok ()

/-- The number in a part of a selector, or the refusal that names the part. -/
def number (limit : Option Nat) (name text : String) : Except Invalid Nat :=
  match number? text with
  | some n => (checkLength limit text).map fun _ => n
  | none => .error (.number name text)

/-! ### Reading a selector -/

/-- The letters of the media types. -/
def mediaTypes : List String := ["v", "a", "s", "d", "t", "V"]

/-- The part without its first character, if that is the number sign. -/
def afterNumberSign? (part : String) : Option String :=
  match part.toList with
  | '#' :: rest => some (String.ofList rest)
  | _ => none

/-- Parts joined again. -/
def joinParts (parts : List String) : String := ":".intercalate parts

/-- Ends the reading: nothing may be left. -/
def finish (found : List Field) (rest : List String) : Except Invalid (List Field) :=
  if rest.isEmpty then .ok found else .error (.unresolved (joinParts rest))

/-- Reads the primary part. -/
def parsePrimary (limit : Option Nat) (found : List Field) (part : String) (rest : List String) :
    Except Invalid (List Field) :=
  match afterNumberSign? part with
  | some text => do
    let n ← number limit "stream_id" text
    finish (put found (.streamId n)) rest
  | none =>
    if part == "i" then
      match rest with
      | [] => .error (.missing "stream_id")
      | text :: rest => do
        let n ← number limit "stream_id" text
        finish (put found (.streamId n)) rest
    else if part == "u" then finish (put found .usable) rest
    else if part == "m" then
      match rest with
      | [key] => .ok (put found (.tag key none))
      | [key, value] => .ok (put found (.tag key (some value)))
      | _ => .error (.metadata (joinParts (part :: rest)))
    else
      match number limit "index" part with
      | .ok n => finish (put found (.index n)) rest
      | .error _ => .error (.unknown part)

/-- Reads the parts of a selector after the fields found so far. -/
def parseParts (limit : Option Nat) (found : List Field) :
    List String → Except Invalid (List Field)
  | [] => .ok found
  | part :: rest =>
    if mediaTypes.contains part then parseParts limit (put found (.mediaType part)) rest
    else if part == "p" then
      match rest with
      | [] => .error (.missing "program_id")
      | text :: rest => do
        let n ← number limit "program_id" text
        parseParts limit (put found (.programId n)) rest
    else if part == "g" then
      match rest with
      | [] => .error (.missing "group specifier")
      | group :: rest =>
        if group == "i" then
          match rest with
          | [] => .error (.missing "group_id")
          | text :: rest => do
            let n ← number limit "group_id" text
            parseParts limit (put found (.groupId n)) rest
        else
          match afterNumberSign? group with
          | some text => do
            let n ← number limit "group_id" text
            parseParts limit (put found (.groupId n)) rest
          | none => do
            let n ← number limit "group index" group
            parseParts limit (put found (.groupIndex n)) rest
    else parsePrimary limit found part rest

/-- The parts of a selector. -/
def parts (selector : String) : List String :=
  (Text.splitOnClass (· == ':') selector.toList).map String.ofList

/-- The fields of a selector under a limit for decimal numerals, in the order in which they first
come. -/
def parseWithin (limit : Option Nat) (selector : String) : Except Invalid (List Field) :=
  parseParts limit [] (parts selector)

/-- The fields of a selector. -/
def parse (selector : String) : Except Invalid (List Field) :=
  parseWithin (some Text.maxIntegerDigits) selector

end MediaCommand.Selector
