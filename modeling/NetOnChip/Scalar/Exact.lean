import NetOnChip.Scalar

/-!
# Exact scalars

Rational numbers, two infinities and an undefined value: what doubles stand for as long as nothing
is rounded. Statements about the real arithmetic behind a cost are made over these scalars.

Arithmetic on the infinities follows that of doubles, except that there is only one zero: a number
divided by zero is infinite with the sign of the number. What has no value, such as the difference
of two equal infinities, is undefined, and so is everything calculated from it. An undefined value
is in no order with any other one.
-/

namespace NetOnChip

/-- An exact scalar. -/
inductive Exact where
  /-- A rational number. -/
  | number (q : Rat)
  /-- A value beyond all numbers, below them if it is negative. -/
  | infinite (negative : Bool)
  /-- No value. -/
  | undefined
  deriving DecidableEq

namespace Exact

/-! ### Arithmetic -/

/-- The sum of two exact scalars. -/
def add : Exact → Exact → Exact
  | number a, number b => number (a + b)
  | infinite s, number _ => infinite s
  | number _, infinite t => infinite t
  | infinite s, infinite t => if s = t then infinite s else undefined
  | undefined, _ | _, undefined => undefined

/-- An exact scalar with the opposite sign. -/
def neg : Exact → Exact
  | number a => number (-a)
  | infinite s => infinite !s
  | undefined => undefined

/-- The product of two exact scalars. -/
def mul : Exact → Exact → Exact
  | number a, number b => number (a * b)
  | infinite s, number b => if b = 0 then undefined else infinite (s != decide (b < 0))
  | number a, infinite t => if a = 0 then undefined else infinite (t != decide (a < 0))
  | infinite s, infinite t => infinite (s != t)
  | undefined, _ | _, undefined => undefined

/-- The quotient of two exact scalars. -/
def div : Exact → Exact → Exact
  | number a, number b =>
    if b = 0 then
      if a = 0 then undefined else infinite (decide (a < 0))
    else
      number (a / b)
  | number _, infinite _ => number 0
  | infinite s, number b => infinite (s != decide (b < 0))
  | infinite _, infinite _ => undefined
  | undefined, _ | _, undefined => undefined

/-- The magnitude of an exact scalar. -/
def magnitude : Exact → Exact
  | number a => number (if a < 0 then -a else a)
  | infinite _ => infinite false
  | undefined => undefined

/-! ### Order -/

/-- Whether an exact scalar is less than another one. -/
def lt : Exact → Exact → Bool
  | number a, number b => a < b
  | number _, infinite t => !t
  | infinite s, number _ => s
  | infinite s, infinite t => s && !t
  | undefined, _ | _, undefined => false

/-- Whether an exact scalar is at most another one. -/
def le : Exact → Exact → Bool
  | number a, number b => a ≤ b
  | number _, infinite t => !t
  | infinite s, number _ => s
  | infinite s, infinite t => s || !t
  | undefined, _ | _, undefined => false

/-- The larger of two exact scalars; an undefined one does not count. -/
def larger (a b : Exact) : Exact :=
  if a = undefined then b else if b = undefined then a else if a.lt b then b else a

/-- The smaller of two exact scalars; an undefined one does not count. -/
def smaller (a b : Exact) : Exact :=
  if a = undefined then b else if b = undefined then a else if b.lt a then b else a

/-- A total order in which the undefined value comes last. -/
def order (a b : Exact) : Ordering :=
  match a, b with
  | undefined, undefined => .eq
  | undefined, _ => .gt
  | _, undefined => .lt
  | a, b => if a.lt b then .lt else if b.lt a then .gt else .eq

/-- Whether an exact scalar is a number. -/
def isNumber : Exact → Bool
  | number _ => true
  | infinite _ | undefined => false

end Exact

instance : Scalar Exact where
  zero := .number 0
  one := .number 1
  natCast n := .number n
  add := .add
  sub a b := .add a (.neg b)
  mul := .mul
  div := .div
  neg := .neg
  lt a b := a.lt b
  le a b := a.le b
  decideLT a b := inferInstanceAs (Decidable (a.lt b = true))
  decideLE a b := inferInstanceAs (Decidable (a.le b = true))
  magnitude := .magnitude
  larger := .larger
  smaller := .smaller
  infinity := .infinite false
  isFinite := Exact.isNumber
  tenToMinus n := .number (mkRat 1 (Nat.pow 10 n))
  order := Exact.order

/-! ### Numbers among exact scalars -/

namespace Exact

@[simp] theorem zero_eq_number : (0 : Exact) = number 0 := rfl

@[simp] theorem one_eq_number : (1 : Exact) = number 1 := rfl

@[simp] theorem natCast_eq_number (n : Nat) : (n : Exact) = number n := rfl

@[simp] theorem number_add_number (a b : Rat) : number a + number b = number (a + b) := rfl

@[simp] theorem number_mul_number (a b : Rat) : number a * number b = number (a * b) := rfl

@[simp] theorem neg_number (a : Rat) : -number a = number (-a) := rfl

@[simp] theorem number_sub_number (a b : Rat) : number a - number b = number (a - b) := by
  rw [Rat.sub_eq_add_neg]
  rfl

@[simp] theorem number_lt_number {a b : Rat} : number a < number b ↔ a < b :=
  decide_eq_true_iff

@[simp] theorem number_le_number {a b : Rat} : number a ≤ number b ↔ a ≤ b :=
  decide_eq_true_iff

end Exact

end NetOnChip
