import GroupLasso.Decimal.Digits

/-!
Written forms of floating-point values: plain positional text with the fewest digits, the same
digits with an exponent, and a fixed number of decimals with an exponent.
-/

namespace GroupLasso.Decimal

def signed (negative : Bool) (text : String) : String := if negative then "-" ++ text else text

def zeros (count : Nat) : String := String.ofList (List.replicate count '0')

/-- Positional digits, without an exponent and without a point for whole numbers. -/
def Digits.plain (digits : Digits) : String :=
  let text := toString digits.coefficient
  if 0 ≤ digits.exponent then text ++ zeros digits.exponent.toNat
  else
    let decimals := (-digits.exponent).toNat
    let padded := (zeros (decimals + 1 - text.length) ++ text).toList
    let whole := padded.length - decimals
    String.ofList (padded.take whole) ++ "." ++ String.ofList (padded.drop whole)

def Digits.withExponent (digits : Digits) : String :=
  let text := (toString digits.coefficient).toList
  let tail := if text.length ≤ 1 then "" else "." ++ String.ofList (text.drop 1)
  String.ofList (text.take 1) ++ tail ++ "e" ++ toString digits.leading

/-- Text of a value whose positive magnitudes are written by `digits`; `zero` is that of zero. -/
def write (value : Float) (zero : String) (digits : Dyadic → String) : String :=
  match read value with
  | .nan => "NaN"
  | .infinite negative => signed negative "inf"
  | .finite negative magnitude =>
      signed negative (if magnitude.mantissa = 0 then zero else digits magnitude)

def plain (value : Float) : String := write value "0" fun magnitude => (shortest magnitude).plain

def scientific (value : Float) : String :=
  write value "0e0" fun magnitude => (shortest magnitude).withExponent

def scientificTo (places : Nat) (value : Float) : String :=
  write value ("0." ++ zeros places ++ "e0") fun magnitude =>
    let rounded := significant magnitude (places + 1)
    let carried := digitCount rounded.coefficient = places + 2
    (if carried then ⟨rounded.coefficient / 10, rounded.exponent + 1⟩ else rounded : Digits).withExponent

/-- At most `count` significant digits and at most `decimals` decimals, rounded once and written with
an exponent after a whole coefficient. Zero, and what has no digit within the limits, is `0.0`. -/
def limited (count decimals : Nat) (value : Float) : String :=
  match read value with
  | .finite negative magnitude =>
      let leading := if magnitude.mantissa = 0 then 0 else (shortest magnitude).leading
      let kept := min (Int.ofNat count) (leading + Int.ofNat decimals + 1)
      if magnitude.mantissa = 0 ∨ kept < 1 then "0.0"
      else
        let rounded := significant magnitude kept.toNat
        signed negative (toString rounded.coefficient ++ "e" ++ toString rounded.exponent)
  | _ => plain value

end GroupLasso.Decimal
