/-!
# Random words

A stream of random words that is determined by a seed. The seed is expanded to a key of eight words,
and the words of the stream are the key stream of the ChaCha cipher with twelve rounds under this
key, block after block.
-/

namespace NetOnChip

/-- A position in a stream of random words. -/
structure Stream where
  /-- The key of the cipher. -/
  key : Vector UInt32 8
  /-- The number of the next block. -/
  counter : UInt64
  /-- The words of the present block that were not used yet. -/
  pending : List UInt32
  deriving Repr

namespace Stream

/-! ### Seeding -/

/-- The state after a step of the generator that expands seeds. -/
def seedStep (state : UInt64) : UInt64 :=
  state * 6364136223846793005 + 11634580027462260723

/-- The bits of a word moved up, where those that leave it at the top come in at the bottom. -/
def rotateLeft (x count : UInt32) : UInt32 :=
  (x <<< count) ||| (x >>> ((32 - count) % 32))

/-- The word that the generator of seeds answers in a state. -/
def seedWord (state : UInt64) : UInt32 :=
  let x := (((state >>> 18) ^^^ state) >>> 27).toUInt32
  let turn := (state >>> 59).toUInt32
  rotateLeft x ((32 - turn) % 32)

/-- The states that the generator of seeds passes through. -/
def seedStates : Nat → UInt64 → List UInt64
  | 0, _ => []
  | n + 1, state => seedStep state :: seedStates n (seedStep state)

/-- The key that a seed is expanded to. -/
def keyOfSeed (seed : UInt64) : Vector UInt32 8 :=
  Vector.ofFn fun i ↦ ((seedStates 8 seed)[i.val]?.map seedWord).getD 0

/-- The stream that belongs to a seed. -/
def ofSeed (seed : UInt64) : Stream where
  key := keyOfSeed seed
  counter := 0
  pending := []

/-! ### The cipher -/

/-- The state of the cipher. -/
abbrev Block := Vector UInt32 16

/-- Mixes four words of the state. -/
def quarterRound (a b c d : Fin 16) (s : Block) : Block :=
  let s := s.set a (s[a] + s[b])
  let s := s.set d (rotateLeft (s[d] ^^^ s[a]) 16)
  let s := s.set c (s[c] + s[d])
  let s := s.set b (rotateLeft (s[b] ^^^ s[c]) 12)
  let s := s.set a (s[a] + s[b])
  let s := s.set d (rotateLeft (s[d] ^^^ s[a]) 8)
  let s := s.set c (s[c] + s[d])
  s.set b (rotateLeft (s[b] ^^^ s[c]) 7)

/-- Mixes the columns and then the diagonals of the state. -/
def doubleRound (s : Block) : Block :=
  let s := quarterRound 0 4 8 12 s
  let s := quarterRound 1 5 9 13 s
  let s := quarterRound 2 6 10 14 s
  let s := quarterRound 3 7 11 15 s
  let s := quarterRound 0 5 10 15 s
  let s := quarterRound 1 6 11 12 s
  let s := quarterRound 2 7 8 13 s
  quarterRound 3 4 9 14 s

/-- The state of the cipher before the first round. -/
def initialBlock (key : Vector UInt32 8) (counter : UInt64) : Block :=
  #v[0x61707865, 0x3320646e, 0x79622d32, 0x6b206574,
    key[0], key[1], key[2], key[3], key[4], key[5], key[6], key[7],
    counter.toUInt32, (counter >>> 32).toUInt32, 0, 0]

/-- One block of the key stream. -/
def block (key : Vector UInt32 8) (counter : UInt64) : Block :=
  let s := initialBlock key counter
  Vector.zipWith (· + ·) (Nat.repeat doubleRound 6 s) s

/-! ### Drawing words -/

/-- The next word. -/
def word (s : Stream) : UInt32 × Stream :=
  match s.pending with
  | w :: pending => (w, { s with pending })
  | [] =>
    match (block s.key s.counter).toList with
    | w :: pending => (w, { s with counter := s.counter + 1, pending })
    | [] => (0, s)

/-- The next two words as one number, the low half first. -/
def doubleWord (s : Stream) : UInt64 × Stream :=
  let (low, s) := s.word
  let (high, s) := s.word
  (low.toUInt64 ||| (high.toUInt64 <<< 32), s)

end Stream

end NetOnChip
