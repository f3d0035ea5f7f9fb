/-!
# Decimal digits of doubles

A finite double is `mantissa · 2 ^ exponent`, sign apart. This file finds decimal digits for it in
exact integer arithmetic.

* `shortest` finds the fewest digits that read back as the same double, and among decimals with
  that many digits the one nearest to the double; of two equally near ones it takes the larger.
* `roundedTo` finds the multiple of a power of ten nearest to the double; of two equally near ones
  it takes the even one.

The decimals that read back as a double are those between the midpoints to its two neighbours, the
midpoints included when the mantissa is even. If a decimal with `n` digits lies in that interval,
then so does one of the two decimals with `n` digits that enclose the double, so `shortest` looks
only at those, for `n = 1, 2, …, 17`.
-/

namespace NetOnChip

/-- The decimal number `digits · 10 ^ exponent`. -/
structure Decimal where
  /-- All digits, read as one natural number. -/
  digits : Nat
  /-- The power of ten that the last digit stands for. -/
  exponent : Int
  deriving DecidableEq, Repr

/-- The binary number `mantissa · 2 ^ exponent`. -/
structure Binary where
  /-- The significand as a natural number. -/
  mantissa : Nat
  /-- The power of two that the last bit stands for. -/
  exponent : Int
  /-- The next smaller double lies only half as far away as the next larger one. -/
  narrowBelow : Bool
  deriving DecidableEq, Repr

/-- The magnitude of a finite double. -/
def Binary.ofFloat (a : Float) : Binary :=
  let bits := a.toBits.toNat
  let fraction : Nat := bits % Nat.pow 2 52
  let biased : Nat := bits / Nat.pow 2 52 % Nat.pow 2 11
  if biased = 0 then
    ⟨fraction, -1074, false⟩
  else
    ⟨Nat.pow 2 52 + fraction, (biased : Int) - 1075, fraction = 0 && biased ≠ 1⟩

namespace Decimal

/-- Compares `a · 10 ^ k` with `n / d`. -/
def compareScaled (a : Nat) (k : Int) (n d : Nat) : Ordering :=
  if k < 0 then
    compare (a * d) (n * Nat.pow 10 (-k).toNat)
  else
    compare (a * Nat.pow 10 k.toNat * d) n

/-- The largest `a` with `a · 10 ^ k ≤ n / d`. -/
def floorScaled (k : Int) (n d : Nat) : Nat :=
  if k < 0 then n * Nat.pow 10 (-k).toNat / d else n / (d * Nat.pow 10 k.toNat)

/-- The number of decimal digits of a natural number; zero has one. -/
def length (n : Nat) : Nat :=
  (Nat.toDigits 10 n).length

/-- The power of ten of the leading digit of `n / d`, for positive `n`. -/
def leadingPower (n d : Nat) : Int :=
  if d ≤ n then
    (length (n / d) : Int) - 1
  else
    let k := length (d / n) - 1
    if d ≤ n * Nat.pow 10 k then -k else -(k + 1)

/-- The decimal without the zeros at its end. -/
def dropZeros : Nat → Decimal → Decimal
  | 0, a => a
  | fuel + 1, a =>
    if a.digits ≠ 0 ∧ a.digits % 10 = 0 then dropZeros fuel ⟨a.digits / 10, a.exponent + 1⟩ else a

/-- A positive fraction `value / scale`, with the ends of the interval of numbers that read back as
the double it came from. -/
structure Rounding where
  /-- The numerator of the lower end. -/
  low : Nat
  /-- The numerator of the double itself. -/
  value : Nat
  /-- The numerator of the upper end. -/
  high : Nat
  /-- The common denominator. -/
  scale : Nat
  /-- Whether the ends belong to the interval. -/
  closed : Bool

/-- The numbers that read back as a given double. -/
def Rounding.ofBinary (b : Binary) : Rounding :=
  let e := b.exponent - 2
  let unit := if e < 0 then 1 else Nat.pow 2 e.toNat
  let scale := if e < 0 then Nat.pow 2 (-e).toNat else 1
  let below := if b.narrowBelow then 1 else 2
  { low := (4 * b.mantissa - below) * unit
    value := 4 * b.mantissa * unit
    high := (4 * b.mantissa + 2) * unit
    scale := scale
    closed := b.mantissa % 2 = 0 }

/-- Whether the decimal `a · 10 ^ k` reads back as the double. -/
def Rounding.admits (r : Rounding) (a : Nat) (k : Int) : Bool :=
  let above := compareScaled a k r.low r.scale
  let under := compareScaled a k r.high r.scale
  if r.closed then above ≠ .lt && under ≠ .gt else above = .gt && under = .lt

/-- The nearest admitted multiple of `10 ^ k`, if one is admitted. -/
def Rounding.nearest? (r : Rounding) (k : Int) : Option Nat :=
  let a := floorScaled k r.value r.scale
  match r.admits a k, r.admits (a + 1) k with
  | true, true =>
    if compareScaled (2 * a + 1) k (2 * r.value) r.scale = .gt then some a else some (a + 1)
  | true, false => some a
  | false, true => some (a + 1)
  | false, false => none

/-- The first admitted decimal, where `count` more digits may be tried and `k` is the power of ten
of the last digit tried next. -/
def Rounding.search (r : Rounding) : Nat → Int → Decimal
  | 0, k => ⟨floorScaled k r.value r.scale, k⟩
  | count + 1, k =>
    match r.nearest? k with
    | some a => ⟨a, k⟩
    | none => r.search count (k - 1)

/-- The shortest decimal that reads back as the double, nearest to it among those as short. -/
def shortest (b : Binary) : Decimal :=
  if b.mantissa = 0 then
    ⟨0, 0⟩
  else
    let r := Rounding.ofBinary b
    dropZeros 17 (r.search 17 (leadingPower r.value r.scale))

/-- The multiple of `10 ^ k` nearest to a double, an even multiple where two are equally near. -/
def roundedTo (k : Int) (b : Binary) : Decimal :=
  let r := Rounding.ofBinary b
  let a := floorScaled k r.value r.scale
  match compareScaled (2 * a + 1) k (2 * r.value) r.scale with
  | .gt => ⟨a, k⟩
  | .lt => ⟨a + 1, k⟩
  | .eq => ⟨a + a % 2, k⟩

/-- A positive double rounded to `places + 1` digits, counted from its leading digit. -/
def roundedDigits (places : Nat) (b : Binary) : Decimal :=
  let r := Rounding.ofBinary b
  let k := leadingPower r.value r.scale - places
  let a := roundedTo k b
  if a.digits = Nat.pow 10 (places + 1) then ⟨Nat.pow 10 places, k + 1⟩ else a

end Decimal

end NetOnChip
