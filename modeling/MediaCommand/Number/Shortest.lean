/-
The shortest decimal text of a floating-point number.

A finite number owns an interval of reals, those nearer to it than to its neighbours; the ends
belong to it when its mantissa is even.  For one digit, two digits, and so on up to seventeen,
the two neighbours of the number on that decimal grid are tried, and the first grid with a point
in the interval gives the digits.  If both neighbours lie inside, the nearer one is taken, and
of two equally near ones the even.

The text is positional from 0.0001 up to sixteen digits before the point, always with a point,
and has an exponent with a sign and at least two digits beyond.
-/
import MediaCommand.Number.Double

namespace MediaCommand

namespace Double

-- Powers are the ones that come with the numbers, whatever other structure is known on these.
attribute [local instance (high)] instPowNat

/-- Digits of a numeral and the power of ten that they count. -/
structure Decimal where
  digits : Nat
  power : Int
  deriving DecidableEq, Repr

/-- A positive number as a quotient of whole numbers, four times over so that the ends of its
interval are whole as well. -/
def quadruple (m : Nat) (e : Int) : Nat × Nat :=
  if 0 ≤ e then (4 * m * 2 ^ e.toNat, 1) else (4 * m, 2 ^ (-e).toNat)

/-- Four times the distance from the number to the lower end of its interval, over the same
denominator: half a step down, where the step is halved just above a power of two. -/
def lowerGap (m : Nat) (e : Int) : Nat :=
  (if 2 * m == mantissaBound && minExponent < e then 1 else 2) * (if 0 ≤ e then 2 ^ e.toNat else 1)

/-- Four times the distance from the number to the upper end of its interval. -/
def upperGap (e : Int) : Nat := 2 * (if 0 ≤ e then 2 ^ e.toNat else 1)

/-- The power of ten of the leading digit of `num / den`. -/
def leadingPower (num den : Nat) : Int :=
  let shift : Nat := 400
  ((Nat.toDigits 10 (num * 10 ^ shift / den)).length : Int) - 1 - shift

/-- The decimal `d · 10 ^ k` over the denominator `den`, as far as both sides are scaled by the same
power of ten: the pair of the scaled decimal and the scale. -/
def scaled (d : Nat) (k : Int) (den : Nat) : Nat × Nat :=
  if 0 ≤ k then (d * 10 ^ k.toNat * den, 1) else (d * den, 10 ^ (-k).toNat)

/-- The distance of a decimal from the number if it lies in the interval of the number. -/
def distance? (m : Nat) (e : Int) (d : Nat) (k : Int) : Option Nat :=
  let (num, den) := quadruple m e
  let (point, scale) := scaled (4 * d) k den
  let centre := num * scale
  let gap := if point ≤ centre then centre - point else point - centre
  let limit := (if point ≤ centre then lowerGap m e else upperGap e) * scale
  if gap < limit || (gap == limit && m % 2 == 0) then some gap else none

/-- The decimal nearest to the number among the two neighbours on the grid of `n` digits, if one of
them reads back. -/
def onGrid? (m : Nat) (e : Int) (n : Nat) : Option Decimal :=
  let (num, den) := quadruple m e
  let k := leadingPower num (4 * den) - n + 1
  let d := if 0 ≤ k then num / (4 * den * 10 ^ k.toNat) else num * 10 ^ (-k).toNat / (4 * den)
  match distance? m e d k, distance? m e (d + 1) k with
  | some a, some b =>
    if a < b || (a == b && d % 2 == 0) then some ⟨d, k⟩ else some ⟨d + 1, k⟩
  | some _, none => some ⟨d, k⟩
  | none, some _ => some ⟨d + 1, k⟩
  | none, none => none

/-- The shortest decimal that reads back as the positive number. -/
def shortest (m : Nat) (e : Int) : Decimal :=
  ((List.range 17).findSome? fun i => onGrid? m e (i + 1)).getD ⟨m, 0⟩

/-- The digits without the zeros at their end. -/
def dropTrailingZeros (ds : List Char) : List Char := (ds.reverse.dropWhile (· == '0')).reverse

/-- The power of ten of the leading digit from which on numbers are written with an exponent. -/
def exponentFrom : Int := 16

/-- The power of ten of the leading digit below which numbers are written with an exponent. -/
def exponentBelow : Int := -4

/-- The exponent part of a text: sign and at least two digits. -/
def exponentText (p : Int) : List Char :=
  let ds := Nat.toDigits 10 p.natAbs
  'e' :: (if p < 0 then '-' else '+') :: (List.replicate (2 - ds.length) '0' ++ ds)

/-- The text of digits whose first one counts `10 ^ p`. -/
def layout (ds : List Char) (p : Int) : List Char :=
  if exponentBelow ≤ p && p < exponentFrom then
    if 0 ≤ p then
      let whole := ds.take (p.toNat + 1)
      let fraction := ds.drop (p.toNat + 1)
      whole ++ List.replicate (p.toNat + 1 - whole.length) '0' ++
        '.' :: (if fraction.isEmpty then ['0'] else fraction)
    else '0' :: '.' :: (List.replicate (-p - 1).toNat '0' ++ ds)
  else
    match ds with
    | [] => exponentText p
    | [d] => d :: exponentText p
    | d :: rest => d :: '.' :: (rest ++ exponentText p)

/-- The text of a floating-point number. -/
def text : Double → String
  | .nan => "nan"
  | .infinite negative => if negative then "-inf" else "inf"
  | .finite negative m e =>
    let body :=
      if m == 0 then ['0', '.', '0']
      else
        let decimal := shortest m e
        let ds := Nat.toDigits 10 decimal.digits
        layout (dropTrailingZeros ds) (decimal.power + ds.length - 1)
    String.ofList (if negative then '-' :: body else body)

end Double

end MediaCommand
