import NetOnChip.Decimal.Digits

/-!
# Decimal text

How a double is written. A `Style` fixes the form (with an exponent or without), the number of
decimal places (or the fewest digits that read back), and whether a positive number shows its sign.

A zero keeps its sign. What is not a number is written `NaN`, an infinite one `inf`. The exponent
is written without padding and without a plus sign, as in `1.25e-9`.
-/

namespace NetOnChip

namespace Decimal

/-- The forms in which a number may be written. -/
inductive Form where
  /-- One digit before the point, and the power of ten after an `e`. -/
  | scientific
  /-- All digits in their places, with as many zeros as that needs. -/
  | positional
  deriving DecidableEq

/-- How a double is written. -/
structure Style where
  /-- With or without an exponent. -/
  form : Form
  /-- The number of decimal places, or none for the fewest digits that read back. -/
  places : Option Nat
  /-- Whether a number without a minus sign starts with a plus sign. -/
  plus : Bool

/-- The fewest digits that read back, with an exponent. -/
def Style.shortScientific : Style := ⟨.scientific, none, false⟩

/-- The fewest digits that read back, with an exponent and always with a sign. -/
def Style.signedScientific : Style := ⟨.scientific, none, true⟩

/-- The fewest digits that read back, without an exponent. -/
def Style.shortPositional : Style := ⟨.positional, none, false⟩

/-- A fixed number of decimal places, without an exponent. -/
def Style.fixed (places : Nat) : Style := ⟨.positional, some places, false⟩

/-- A fixed number of decimal places after the leading digit, with an exponent. -/
def Style.fixedScientific (places : Nat) : Style := ⟨.scientific, some places, false⟩

/-- A point and the digits after it; nothing where there are none. -/
def fractionText (digits : List Char) : String :=
  if digits.isEmpty then "" else "." ++ String.ofList digits

/-- A decimal with one digit before the point, and its exponent. -/
def scientificText (a : Decimal) : String :=
  let digits := Nat.toDigits 10 a.digits
  let power := a.exponent + ((digits.length : Int) - 1)
  let power := if a.digits = 0 then 0 else power
  String.ofList (digits.take 1) ++ fractionText (digits.drop 1) ++ "e" ++ toString power

/-- A decimal with its digits in their places. -/
def positionalText (a : Decimal) : String :=
  if 0 ≤ a.exponent then
    toString (a.digits * Nat.pow 10 a.exponent.toNat)
  else
    let places := (-a.exponent).toNat
    let whole := a.digits / Nat.pow 10 places
    let part := Nat.toDigits 10 (a.digits % Nat.pow 10 places)
    toString whole ++ fractionText (List.replicate (places - part.length) '0' ++ part)

/-- The digits of a decimal `0` written with a fixed number of places after an exponent. -/
def zeroDigits (places : Nat) : String :=
  "0" ++ fractionText (List.replicate places '0') ++ "e0"

/-- The text of a magnitude. -/
def magnitudeText (style : Style) (b : Binary) : String :=
  match style.form, style.places with
  | .scientific, none => scientificText (shortest b)
  | .scientific, some places =>
    if b.mantissa = 0 then zeroDigits places else scientificText (roundedDigits places b)
  | .positional, none => positionalText (shortest b)
  | .positional, some places => positionalText (roundedTo (-places) b)

/-- The text of a double in a given style. -/
def render (style : Style) (a : Float) : String :=
  if a.isNaN then
    "NaN"
  else
    let negative := a.toBits.toNat ≥ Nat.pow 2 63
    let sign := if negative then "-" else if style.plus then "+" else ""
    sign ++ if a.isInf then "inf" else magnitudeText style (.ofFloat a)

/-- The text of a double with an exponent and the fewest digits that read back. -/
def scientific (a : Float) : String :=
  render .shortScientific a

/-! ### Examples -/

example : scientific 1.25e-9 = "1.25e-9" := by decide +kernel

example : scientific (-0.0) = "-0e0" := by decide +kernel

example : scientific 5e-324 = "5e-324" := by decide +kernel

/-- Two decimals with seventeen digits are equally near; the larger one is written. -/
example : scientific 1611077702921618.25 = "1.6110777029216183e15" := by decide +kernel

example : render .signedScientific 2.0 = "+2e0" := by decide +kernel

example : render .shortPositional 1e-9 = "0.000000001" := by decide +kernel

/-- Two multiples of a tenth are equally near; the even one is written. -/
example : render (.fixed 1) 0.25 = "0.2" := by decide +kernel

example : render (.fixedScientific 3) 0.0475 = "4.750e-2" := by decide +kernel

end Decimal

end NetOnChip
