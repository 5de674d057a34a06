/-
Numbers as people write them: whole numbers and decimals with a sign, digits of any script, and
single underscores between digits.

A text is read as a whole number if it is one, then as a decimal, and is left as a text
otherwise. Blanks around it do not count, but the information separators are no blanks here.
Decimals may have a fraction, an exponent, or be one of the words for infinity and for what is
no number, in letters of any case.
-/
import MediaCommand.Number.Double
import MediaCommand.Text.Blank
import MediaCommand.Text.Digit

namespace MediaCommand.Literal

open Text

/-- The digits of a numeral without the underscores, which must stand between two digits each;
`afterDigit` tells whether a digit stands just before. -/
def groupedDigits? (afterDigit : Bool) : List Char → Option (List Nat)
  | [] => if afterDigit then some [] else none
  | '_' :: rest => if afterDigit then groupedDigits? false rest else none
  | c :: rest => (decimalDigit? c).bind fun d => (groupedDigits? true rest).map (d :: ·)

/-- The value of digits in base ten. -/
def digitsValue (ds : List Nat) : Nat := ds.foldl (fun acc d => acc * 10 + d) 0

/-- A sign and the rest of the text. -/
def splitSign : List Char → Bool × List Char
  | '-' :: rest => (true, rest)
  | '+' :: rest => (false, rest)
  | cs => (false, cs)

/-- Whether the character may stand around a number. -/
def isPadding (c : Char) : Bool := isBlank c && !(0x1C ≤ c.toNat && c.toNat ≤ 0x1F)

/-- The characters of a number without what may stand around it. -/
def unpadded (cs : List Char) : List Char :=
  ((cs.dropWhile isPadding).reverse.dropWhile isPadding).reverse

/-- The whole number that the characters write. -/
def int? (cs : List Char) : Option Int :=
  let (negative, digits) := splitSign (unpadded cs)
  (groupedDigits? false digits).bind fun ds =>
    if maxIntegerDigits < ds.length then none
    else some (if negative then -(digitsValue ds : Int) else digitsValue ds)

/-- The characters up to the first one of a class, and the rest from there on. -/
def cutAt (stop : Char → Bool) (cs : List Char) : List Char × List Char :=
  (cs.takeWhile (!stop ·), cs.dropWhile (!stop ·))

/-- The digits of a part of a decimal that may be missing. -/
def optionalDigits? (cs : List Char) : Option (List Nat) :=
  if cs.isEmpty then some [] else groupedDigits? false cs

/-- An exponent with its sign. -/
def exponent? (cs : List Char) : Option Int :=
  let (negative, digits) := splitSign cs
  (groupedDigits? false digits).map fun ds =>
    if negative then -(digitsValue ds : Int) else digitsValue ds

/-- The decimal without a sign that the characters write. -/
def unsigned? (negative : Bool) (cs : List Char) : Option Double :=
  let (mantissa, tail) := cutAt (fun c => c == 'e' || c == 'E') cs
  let (whole, fractionTail) := cutAt (· == '.') mantissa
  let power? := match tail with
    | [] => some 0
    | _ :: digits => exponent? digits
  (optionalDigits? whole).bind fun ws =>
    (optionalDigits? (fractionTail.drop 1)).bind fun fs =>
      power?.bind fun p =>
        if ws.isEmpty && fs.isEmpty then none
        else some (Double.ofDecimal negative (digitsValue (ws ++ fs)) (p - fs.length))

/-- The decimal that the characters write. -/
def double? (cs : List Char) : Option Double :=
  let (negative, body) := splitSign (unpadded cs)
  let word := String.ofList (body.map Char.toLower)
  if word == "inf" || word == "infinity" then some (.infinite negative)
  else if word == "nan" then some .nan
  else unsigned? negative body

end MediaCommand.Literal
