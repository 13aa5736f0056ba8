/-!
Decimal digits of binary floating-point values, computed exactly in natural numbers: rounding to a
number of significant digits, and the fewest digits that read back as the same value.
-/

namespace GroupLasso.Decimal

/-- The non-negative value `mantissa · 2 ^ exponent`. -/
structure Dyadic where
  mantissa : Nat
  exponent : Int

inductive Reading where
  | nan
  | infinite (negative : Bool)
  | finite (negative : Bool) (magnitude : Dyadic)

/-- The non-negative value `coefficient · 10 ^ exponent`. -/
structure Digits where
  coefficient : Nat
  exponent : Int

/-- The leading bit of a mantissa. The bits leave it out, and values of the least exponent lack it. -/
def hiddenBit : Nat := 1 <<< 52

def read (value : Float) : Reading :=
  let bits := value.toBits.toNat
  let negative := bits >>> 63 == 1
  let biased := (bits >>> 52) % 2048
  let fraction := bits % hiddenBit
  if biased == 2047 then
    if fraction == 0 then .infinite negative else .nan
  else if biased == 0 then .finite negative ⟨fraction, -1074⟩
  else .finite negative ⟨fraction + hiddenBit, Int.ofNat biased - 1075⟩

def Dyadic.numerator (value : Dyadic) : Nat := value.mantissa <<< value.exponent.toNat

def Dyadic.denominator (value : Dyadic) : Nat := 1 <<< (-value.exponent).toNat

def tenTo (exponent : Nat) : Nat := Nat.pow 10 exponent

/-- The number of decimal digits of a natural number; zero has none. -/
def digitCount (number : Nat) : Nat :=
  if _positive : 0 < number then digitCount (number / 10) + 1 else 0
termination_by number

def leadingExponent (numerator denominator : Nat) : Int :=
  if denominator ≤ numerator then Int.ofNat (digitCount (numerator / denominator)) - 1
  else -Int.ofNat (digitCount ((denominator - 1) / numerator))

/-- The nearest natural number to a quotient; a half goes to the even neighbour. -/
def roundHalfEven (numerator denominator : Nat) : Nat :=
  let quotient := numerator / denominator
  let twice := 2 * (numerator % denominator)
  if twice < denominator ∨ (twice = denominator ∧ quotient % 2 = 0) then quotient else quotient + 1

/-- Drops trailing zeros of the coefficient, so that a value has one form. -/
def Digits.normalize (digits : Digits) : Digits :=
  if _tens : 0 < digits.coefficient ∧ digits.coefficient % 10 = 0 then
    Digits.normalize ⟨digits.coefficient / 10, digits.exponent + 1⟩
  else digits
termination_by digits.coefficient
decreasing_by omega

def Digits.leading (digits : Digits) : Int :=
  digits.exponent + Int.ofNat (digitCount digits.coefficient) - 1

def significant (value : Dyadic) (count : Nat) : Digits :=
  let numerator := value.numerator
  let denominator := value.denominator
  let place := leadingExponent numerator denominator - Int.ofNat count + 1
  let coefficient :=
    roundHalfEven (numerator * tenTo (-place).toNat) (denominator * tenTo place.toNat)
  ⟨coefficient, place⟩

/-- The point nearest to a positive value, upwards from a tie, among those two neighbours of the
value on the grid of multiples of `10 ^ place` that still read back as the value. A number reads
back when it is no further away than half the gap to the next floating-point value; the gap below
the least mantissa of a binade is half as wide, and both ends count when the mantissa is even. -/
def nearestReadingBack? (value : Dyadic) (place : Int) : Option Digits :=
  let quarter : Dyadic := ⟨1, value.exponent - 2⟩
  let scale := quarter.denominator * tenTo place.toNat
  let unit := quarter.numerator * tenTo (-place).toNat
  let below := if value.mantissa = hiddenBit ∧ -1074 < value.exponent then 1 else 2
  let center := 4 * value.mantissa * unit
  let lower := (4 * value.mantissa - below) * unit
  let upper := (4 * value.mantissa + 2) * unit
  let inside (coefficient : Nat) : Bool :=
    if value.mantissa % 2 = 0 then lower ≤ coefficient * scale ∧ coefficient * scale ≤ upper
    else lower < coefficient * scale ∧ coefficient * scale < upper
  let down := center / scale
  let up := if center % scale = 0 then down else down + 1
  match inside down, inside up with
  | true, true =>
      if 2 * (center % scale) < scale then some ⟨down, place⟩ else some ⟨up, place⟩
  | true, false => some ⟨down, place⟩
  | false, true => some ⟨up, place⟩
  | false, false => none

/-- The fewest digits that read back as a positive value; seventeen always do. -/
def shortest (value : Dyadic) : Digits :=
  let leading := leadingExponent value.numerator value.denominator
  let found := (List.range 17).findSome? fun extra =>
    nearestReadingBack? value (leading - Int.ofNat extra)
  (found.getD (significant value 17)).normalize

end GroupLasso.Decimal
