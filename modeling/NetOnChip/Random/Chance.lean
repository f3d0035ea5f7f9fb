import NetOnChip.Failure
import NetOnChip.Random.Stream

/-!
# Random choices

A `Chance` is a source of random choices: numbers below a bound, scalars between two bounds, coins,
and the decision whether a move that raises the cost is made all the same. What is written against
it can be run with any source, and what is proved about it holds whatever the source answers.

Some choices are made by rejection: something is drawn again and again until it will do. Nothing
bounds such a loop, so whether it ends depends on what is drawn. A source comes with a *patience*,
and a loop that wants to draw more often than that is given up with the fault
`Fault.drawsExhausted`. A computation that is not given up does the same with more patience.

`Chance.ofStream` is the source that runs use. It takes its choices from a stream of random words.
A number below a bound is found by rejection: a word is drawn, multiplied by the bound, and the high
half of the product is the answer unless the low half is too large.
-/

namespace NetOnChip

/-- A computation that draws from a source of type `σ` and may fail. -/
abbrev Draw (σ α : Type) := StateT σ (Except (Failure α))

/-- A source of random choices. -/
structure Chance (σ α : Type) where
  /-- A number below a bound, by way of words of 32 bits. -/
  below : Nat → Draw σ α Nat
  /-- A number below a bound, by way of words of 64 bits. -/
  belowWide : Nat → Draw σ α Nat
  /-- A scalar that is not below the first bound and is below the second one. -/
  between : α → α → Draw σ α α
  /-- A coin that shows `true` with a given probability. -/
  coin : α → Draw σ α Bool
  /-- Whether to make a move that changes the cost by the first scalar, at a temperature. -/
  climb : α → α → Draw σ α Bool
  /-- How often a choice may be rejected in a row. -/
  patience : Nat

namespace Chance

/-- The largest low half of a product that is accepted for a bound, with words of some bits. -/
def zone (bits bound : Nat) : Nat :=
  bound * Nat.pow 2 (bits - 1 - bound.log2) - 1

/-- Draws words until one is accepted. -/
def search {σ : Type} (bits bound : Nat) (draw : σ → Nat × σ) : Nat → σ → Option (Nat × σ)
  | 0, _ => none
  | count + 1, s =>
    let (w, s) := draw s
    let product := w * bound
    if product % Nat.pow 2 bits ≤ zone bits bound then
      some (product / Nat.pow 2 bits, s)
    else
      search bits bound draw count s

/-- A number below a bound. -/
def sample {σ α : Type} (patience bits bound : Nat) (draw : σ → Nat × σ) : Draw σ α Nat := fun s ↦
  if bound = 0 then
    Attempt.crash .emptyRange
  else
    match search bits bound draw patience s with
    | some found => .ok found
    | none => Attempt.crash .drawsExhausted

/-- A random fraction that is at least zero and less than one. -/
def fraction (s : Stream) : Float × Stream :=
  let (w, s) := s.doubleWord
  ((w >>> 12).toFloat / 4503599627370496.0, s)

/-- Draws fractions until one leads to a double below the upper bound. -/
def searchBetween (lo hi : Float) : Nat → Stream → Option (Float × Stream)
  | 0, _ => none
  | count + 1, s =>
    let (u, s) := fraction s
    let a := u * (hi - lo) + lo
    if a < hi then some (a, s) else searchBetween lo hi count s

/-- A double that is not below the first bound and is below the second one. -/
def sampleBetween (patience : Nat) (lo hi : Float) : Draw Stream Float Float := fun s ↦
  if lo < hi ∧ lo.isFinite ∧ hi.isFinite ∧ (hi - lo).isFinite then
    match searchBetween lo hi patience s with
    | some found => .ok found
    | none => Attempt.crash .drawsExhausted
  else
    Attempt.crash .emptyRange

/-- A coin that shows `true` with a given probability. Certainty needs no random word. -/
def toss (probability : Float) : Draw Stream Float Bool := fun s ↦
  if 0.0 ≤ probability ∧ probability ≤ 1.0 then
    if probability = 1.0 then
      .ok (true, s)
    else
      let (w, s) := s.doubleWord
      .ok (w < (probability * 18446744073709551616.0).toUInt64, s)
  else
    Attempt.crash .improperProbability

/-- Whether to make a move that raises the cost: with a probability that falls with the change and
rises with the temperature. -/
def climbAt (patience : Nat) (change temperature : Float) : Draw Stream Float Bool := do
  let u ← sampleBetween patience 0.0 1.0
  return u < Float.exp (-change / temperature)

/-- The choices that a stream of random words leads to. -/
def ofStream (patience : Nat) : Chance Stream Float where
  below bound := sample patience 32 bound fun s ↦ let (w, s) := s.word; (w.toNat, s)
  belowWide bound := sample patience 64 bound fun s ↦ let (w, s) := s.doubleWord; (w.toNat, s)
  between := sampleBetween patience
  coin := toss
  climb := climbAt patience
  patience := patience

end Chance

end NetOnChip
