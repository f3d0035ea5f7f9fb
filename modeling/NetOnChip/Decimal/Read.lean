/-!
# Reading decimals
-/

namespace NetOnChip

namespace Decimal

/-- The double nearest to `digits · 10 ^ exponent`. Decimals beyond all doubles are infinite, and
decimals below half of the least positive double are zero. -/
def toFloat (digits : Nat) (exponent : Int) : Float :=
  let magnitude := (digits.log2 : Int) * 30103 / 100000 + exponent
  if digits = 0 ∨ magnitude < -400 then
    0.0
  else if 400 < magnitude then
    1.0 / 0.0
  else if exponent < 0 then
    Float.ofScientific digits true (-exponent).toNat
  else
    Float.ofScientific (digits * Nat.pow 10 exponent.toNat) false 0

end Decimal

end NetOnChip
