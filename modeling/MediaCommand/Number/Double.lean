/-
Floating-point numbers of 64 bits, as exact dyadic rationals.

A finite number is a sign, a whole mantissa and a power of two.  Among the pairs that denote one
number the program only ever builds the one with a mantissa of 53 bits, or with the least
exponent when the number is too small for that.  Nothing is computed in machine arithmetic, so
comparing, reading and printing numbers are statements about natural numbers.
-/

namespace MediaCommand

/-- A floating-point number of 64 bits. -/
inductive Double
  | nan
  | infinite (negative : Bool)
  | finite (negative : Bool) (mantissa : Nat) (exponent : Int)
  deriving DecidableEq, Repr

namespace Double

-- Powers are the ones that come with the numbers, whatever other structure is known on these.
attribute [local instance (high)] instPowNat

/-- The least exponent of a mantissa. -/
def minExponent : Int := -1074

/-- The greatest exponent of a mantissa. -/
def maxExponent : Int := 971

/-- The bound below which mantissas lie. -/
def mantissaBound : Nat := 2 ^ (53 : Nat)

/-- A quotient rounded to the nearest whole number, a half going to the even neighbour. -/
def roundQuotient (num den : Nat) : Nat :=
  let q := num / den
  let r := num % den
  if 2 * r < den then q else if den < 2 * r then q + 1 else q + q % 2

/-- The quotient `num / den`, divided by two to the power `e` and rounded to a whole number. -/
def scaledQuotient (num den : Nat) (e : Int) : Nat :=
  if 0 ≤ e then roundQuotient num (den * 2 ^ e.toNat) else roundQuotient (num * 2 ^ (-e).toNat) den

/-- The exponent at which the quotient of two positive numbers has a mantissa of 53 bits, or the
least exponent if it has fewer there. -/
def exponentOf (num den : Nat) : Int :=
  let e : Int := (num.log2 : Int) - den.log2 - 53
  let e := if scaledQuotient num den e < mantissaBound then e else e + 1
  max e minExponent

/-- The number nearest to the quotient `num / den`. -/
def ofQuotient (negative : Bool) (num den : Nat) : Double :=
  if num == 0 then .finite negative 0 minExponent
  else
    let e := exponentOf num den
    let m := scaledQuotient num den e
    let (m, e) := if m == mantissaBound then (mantissaBound / 2, e + 1) else (m, e)
    if maxExponent < e then .infinite negative else .finite negative m e

/-- The number nearest to `digits · 10 ^ power`. The powers beyond the range of the format are
settled by the count of digits alone. -/
def ofDecimal (negative : Bool) (digits : Nat) (power : Int) : Double :=
  let magnitude : Int := (Nat.toDigits 10 digits).length + power
  if digits == 0 then .finite negative 0 minExponent
  else if 400 < magnitude then .infinite negative
  else if magnitude < -400 then .finite negative 0 minExponent
  else if 0 ≤ power then ofQuotient negative (digits * 10 ^ power.toNat) 1
  else ofQuotient negative digits (10 ^ (-power).toNat)

/-! ### As whole numbers of the least unit -/

/-- A finite number in units of the least positive one. -/
def units : Double → Int
  | .finite negative m e =>
    let size : Int := m * 2 ^ (e - minExponent).toNat
    if negative then -size else size
  | _ => 0

/-- The finite number nearest to so many units; a zero has the given sign. -/
def ofUnits (negativeZero : Bool) (n : Int) : Double :=
  if n == 0 then .finite negativeZero 0 minExponent
  else ofQuotient (n < 0) n.natAbs (2 ^ (-minExponent).toNat)

/-- The number nearest to a whole number, if it is not too large. -/
def ofInt? (n : Int) : Option Double :=
  match ofQuotient (n < 0) n.natAbs 1 with
  | .infinite _ => none
  | x => some x

/-- Whether a number is a zero below zero. -/
def isNegativeZero : Double → Bool
  | .finite negative m _ => negative && m == 0
  | _ => false

/-- The number nearest to the sum of two numbers. Infinities of different signs have none. -/
def add : Double → Double → Double
  | .nan, _ => .nan
  | _, .nan => .nan
  | .infinite s, .infinite s' => if s == s' then .infinite s else .nan
  | .infinite s, _ => .infinite s
  | _, .infinite s => .infinite s
  | x, y => ofUnits (x.isNegativeZero && y.isNegativeZero) (x.units + y.units)

/-! ### Comparing -/

/-- Whether the number is a zero of either sign. -/
def isZero : Double → Bool
  | .finite _ m _ => m == 0
  | _ => false

/-- A mantissa with its sign. -/
def signed (negative : Bool) (mantissa : Nat) : Int :=
  if negative then -(mantissa : Int) else mantissa

/-- Whether the number is the given whole number. -/
def equalsInt (x : Double) (n : Int) : Bool :=
  match x with
  | .finite negative m e =>
    if 0 ≤ e then signed negative m * 2 ^ e.toNat == n
    else signed negative m == n * 2 ^ (-e).toNat
  | _ => false

/-- Equality of the numbers denoted: the zeros are equal, and what is no number equals nothing. -/
def equals : Double → Double → Bool
  | .nan, _ => false
  | .finite s m e, .finite s' m' e' =>
    signed s m * 2 ^ (e - min e e').toNat == signed s' m' * 2 ^ (e' - min e e').toNat
  | x, y => x == y

end Double

end MediaCommand
