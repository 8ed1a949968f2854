import FormFill.Random.Source

/-! # Seeded sources

A seeded source is the key stream of the ChaCha cipher with eight rounds, under a zero nonce and
with a 64-bit block counter from zero. The key is stretched out of a 64-bit seed by a permuted
congruential generator, one word a step.
-/

namespace FormFill.ChaCha

/-- Rotate the bits of a word to the left, by more than none and less than all of its places. -/
def rotateLeft (word places : UInt32) : UInt32 := (word <<< places) ||| (word >>> (32 - places))

/-- Rotate the bits of a word to the right, by any number of places below the word's size. -/
def rotateRight (word places : UInt32) : UInt32 :=
  if places = 0 then word else rotateLeft word (32 - places)

/-- Four words side by side: a row of the state. -/
structure Row where
  w0 : UInt32
  w1 : UInt32
  w2 : UInt32
  w3 : UInt32
deriving DecidableEq

namespace Row

def map (f : UInt32 → UInt32) (row : Row) : Row := ⟨f row.w0, f row.w1, f row.w2, f row.w3⟩

def zip (f : UInt32 → UInt32 → UInt32) (left right : Row) : Row :=
  ⟨f left.w0 right.w0, f left.w1 right.w1, f left.w2 right.w2, f left.w3 right.w3⟩

/-- Move every word one column to the left, the first to the end. -/
def shift (row : Row) : Row := ⟨row.w1, row.w2, row.w3, row.w0⟩

def toList (row : Row) : List UInt32 := [row.w0, row.w1, row.w2, row.w3]

end Row

/-- The cipher's state: constants, key (two rows), and counter with nonce. -/
structure State where
  a : Row
  b : Row
  c : Row
  d : Row
deriving DecidableEq

namespace State

/-- One quarter round in each of the four columns. -/
def columns (s : State) : State :=
  let a := s.a.zip (· + ·) s.b
  let d := (s.d.zip (· ^^^ ·) a).map (rotateLeft · 16)
  let c := s.c.zip (· + ·) d
  let b := (s.b.zip (· ^^^ ·) c).map (rotateLeft · 12)
  let a := a.zip (· + ·) b
  let d := (d.zip (· ^^^ ·) a).map (rotateLeft · 8)
  let c := c.zip (· + ·) d
  let b := (b.zip (· ^^^ ·) c).map (rotateLeft · 7)
  ⟨a, b, c, d⟩

/-- Bring the diagonals into the columns. -/
def diagonalize (s : State) : State := ⟨s.a, s.b.shift, s.c.shift.shift, s.d.shift.shift.shift⟩

/-- Bring the diagonals back. -/
def undiagonalize (s : State) : State := ⟨s.a, s.b.shift.shift.shift, s.c.shift.shift, s.d.shift⟩

/-- A round over the columns and a round over the diagonals. -/
def doubleRound (s : State) : State := s.columns.diagonalize.columns.undiagonalize

def add (s t : State) : State :=
  ⟨s.a.zip (· + ·) t.a, s.b.zip (· + ·) t.b, s.c.zip (· + ·) t.c, s.d.zip (· + ·) t.d⟩

def toList (s : State) : List UInt32 := s.a.toList ++ s.b.toList ++ s.c.toList ++ s.d.toList

end State

/-- The key, as two rows of the state. -/
structure Key where
  low : Row
  high : Row
deriving DecidableEq

/-- The state that a block starts from. -/
def initial (key : Key) (counter : UInt64) : State where
  a := ⟨0x61707865, 0x3320646e, 0x79622d32, 0x6b206574⟩
  b := key.low
  c := key.high
  d := ⟨counter.toUInt32, (counter >>> 32).toUInt32, 0, 0⟩

/-- The sixteen words of a block: eight rounds, added to the start. -/
def block (key : Key) (counter : UInt64) : List UInt32 :=
  let start := initial key counter
  (start.doubleRound.doubleRound.doubleRound.doubleRound.add start).toList

/-- The words of all blocks, one block after another. -/
def stream (key : Key) (position : Nat) : UInt32 :=
  (block key (UInt64.ofNat (position / 16))).getD (position % 16) 0

/-- The next state of the generator that stretches seeds. -/
def seedStep (state : UInt64) : UInt64 := state * 6364136223846793005 + 11634580027462260723

/-- The key word that a state of that generator gives. -/
def seedWord (state : UInt64) : UInt32 :=
  rotateRight ((((state >>> 18) ^^^ state) >>> 27).toUInt32) ((state >>> 59).toUInt32)

/-- The key of a seed: eight steps, one word each. -/
def keyOfSeed (seed : UInt64) : Key :=
  let s0 := seedStep seed
  let s1 := seedStep s0
  let s2 := seedStep s1
  let s3 := seedStep s2
  let s4 := seedStep s3
  let s5 := seedStep s4
  let s6 := seedStep s5
  let s7 := seedStep s6
  ⟨⟨seedWord s0, seedWord s1, seedWord s2, seedWord s3⟩,
    ⟨seedWord s4, seedWord s5, seedWord s6, seedWord s7⟩⟩

end FormFill.ChaCha

namespace FormFill.Source

/-- The source of a seed. -/
def seeded (seed : UInt64) : Source := .ofStream (ChaCha.stream (ChaCha.keyOfSeed seed))

end FormFill.Source
