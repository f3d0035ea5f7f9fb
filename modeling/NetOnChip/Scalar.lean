/-!
# Scalars

Bandwidths, latencies, priorities, weights and costs are *scalars*. Everything that calculates
with them is written against the class `Scalar`, which lists the operations and promises nothing
about them. A run of the program takes the scalars to be doubles (the instance at the end of this
file); a statement about the real arithmetic behind a cost takes them to be exact numbers
(`NetOnChip.Scalar.Exact`). Results that hold of every `Scalar` type hold of doubles bit for bit,
because they use no law of arithmetic.

Three operations need care with doubles. `order` is a total order that agrees with `<` on numbers
and puts `-0` before `0`. `larger` and `smaller` ignore an operand that is not a number, and they
keep the second of two equal operands, so that the sign of a zero depends on the order of the
operands.
-/

namespace NetOnChip

/-- The operations that costs, latencies and link usages are calculated with. -/
class Scalar (α : Type) extends Zero α, One α, NatCast α, Add α, Sub α, Mul α, Div α, Neg α,
    LT α, LE α where
  /-- The strict comparison can be evaluated. -/
  decideLT : ∀ a b : α, Decidable (a < b)
  /-- The weak comparison can be evaluated. -/
  decideLE : ∀ a b : α, Decidable (a ≤ b)
  /-- The magnitude of a scalar. -/
  magnitude : α → α
  /-- The larger of two scalars, where an operand that is not a number does not count. -/
  larger : α → α → α
  /-- The smaller of two scalars, where an operand that is not a number does not count. -/
  smaller : α → α → α
  /-- The scalar beyond all numbers. -/
  infinity : α
  /-- Whether a scalar is a number, neither infinite nor undefined. -/
  isFinite : α → Bool
  /-- `tenToMinus n` is the scalar closest to `10 ^ (-n)`. -/
  tenToMinus : Nat → α
  /-- A total order of all scalars. -/
  order : α → α → Ordering

namespace Scalar

variable {α : Type} [Scalar α]

instance (a b : α) : Decidable (a < b) := decideLT a b

instance (a b : α) : Decidable (a ≤ b) := decideLE a b

/-- The value moved into the interval from `lo` to `hi`; a value that is in no order with the two
bounds stays as it is. -/
def clamp (lo hi a : α) : α :=
  if a < lo then lo else if hi < a then hi else a

end Scalar

/-! ### Doubles -/

namespace Double

/-- The place of a double in the order of its sign and magnitude bits: the doubles with a sign
come before the others, and among them the larger magnitude comes first. -/
def rank (a : Float) : Int :=
  let bits := a.toBits.toNat
  if bits < Nat.pow 2 63 then bits else (Nat.pow 2 63 : Int) - 1 - bits

/-- The larger of two doubles; an operand that is not a number does not count. Of the two zeros it
is the second operand. -/
def larger (a b : Float) : Float :=
  if b.isNaN then a else if b < a then a else b

/-- The smaller of two doubles; an operand that is not a number does not count. Of the two zeros it
is the second operand. -/
def smaller (a b : Float) : Float :=
  if b.isNaN then a else if a < b then a else b

end Double

instance : Scalar Float where
  zero := 0.0
  one := 1.0
  natCast n := .ofNat n
  decideLT := inferInstance
  decideLE := inferInstance
  magnitude := .abs
  larger := Double.larger
  smaller := Double.smaller
  infinity := 1.0 / 0.0
  isFinite a := a.isFinite
  tenToMinus n := .ofScientific 1 true n
  order a b := compare (Double.rank a) (Double.rank b)

end NetOnChip
