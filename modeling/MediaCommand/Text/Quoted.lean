/-
Texts and byte strings in quotes, as messages show them.

The quotation mark is the single one unless only that one occurs inside.  The mark and the backslash
take a backslash, three line characters have short forms, and what cannot be shown becomes a code of
fixed width: two, four or eight hexadecimal digits, whichever is the least that fits.
-/
import MediaCommand.Text.Printable

namespace MediaCommand.Text

/-- Hexadecimal digits of a number, at least `width` of them. -/
def hexDigits (width n : Nat) : List Char :=
  let ds := Nat.toDigits 16 n
  List.replicate (width - ds.length) '0' ++ ds

/-- The quotation mark for a content: double only where the single one would need a backslash and
the double one would not. -/
def quoteMark (hasSingle hasDouble : Bool) : Char :=
  if hasSingle && !hasDouble then '"' else '\''

/-- The code of a character that is not shown. -/
def escapeCode (c : Char) : List Char :=
  let n := c.toNat
  if n ≤ 0xFF then '\\' :: 'x' :: hexDigits 2 n
  else if n ≤ 0xFFFF then '\\' :: 'u' :: hexDigits 4 n
  else '\\' :: 'U' :: hexDigits 8 n

/-- One character of a quoted text. -/
def quotedChar (mark c : Char) : List Char :=
  if c == mark || c == '\\' then ['\\', c]
  else if c == '\t' then ['\\', 't']
  else if c == '\n' then ['\\', 'n']
  else if c == '\r' then ['\\', 'r']
  else if isPrintable c then [c]
  else escapeCode c

/-- The text in quotes. -/
def quoted (s : String) : String :=
  let cs := s.toList
  let mark := quoteMark (cs.contains '\'') (cs.contains '"')
  String.ofList (mark :: (cs.flatMap (quotedChar mark) ++ [mark]))

/-- One byte of a quoted byte string. -/
def quotedByte (mark : Char) (b : UInt8) : List Char :=
  let c := Char.ofNat b.toNat
  if b.toNat < 0x7F then quotedChar mark c else '\\' :: 'x' :: hexDigits 2 b.toNat

/-- The byte string in quotes, led by its own letter. -/
def quotedBytes (data : List UInt8) : String :=
  let cs := data.map fun b => Char.ofNat b.toNat
  let mark := quoteMark (cs.contains '\'') (cs.contains '"')
  String.ofList ('b' :: mark :: (data.flatMap (quotedByte mark) ++ [mark]))

end MediaCommand.Text
