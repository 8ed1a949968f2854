import FormFill.Text.Basic

/-! # Random sources

A source is an endless stream of 32-bit words and the number of words already taken from it. Drawing
never looks at anything but the next words, so two runs over one stream stay in step for as long as
they take equally many.
-/

namespace FormFill

-- Powers here are those of the core library, also where a wider library offers others.
attribute [local instance (2000)] instPowNat

/-- A stream of words, and how many of them have been taken. -/
structure Source where
  word : Nat → UInt32
  drawn : Nat

namespace Source

/-- A stream from its start. -/
def ofStream (word : Nat → UInt32) : Source := ⟨word, 0⟩

/-- The words of a list, over and over again. -/
def cycle (words : Array UInt32) : Source :=
  .ofStream fun position => words.getD (position % words.size) 0

/-- Take the next word. -/
def next (source : Source) : UInt32 × Source :=
  (source.word source.drawn, { source with drawn := source.drawn + 1 })

/-- Take `count` words. -/
def take : Nat → Source → List UInt32 × Source
  | 0, source => ([], source)
  | count + 1, source =>
    let (word, source) := source.next
    let (words, source) := take count source
    (word :: words, source)

/-- Pass over `count` words. -/
def skip (source : Source) (count : Nat) : Source := { source with drawn := source.drawn + count }

/-- Draw a number below `bound`: the high half of `word * bound`. When the low half is so large that
the next word could carry into the high half, that word is taken too and its carry added. -/
def below (bound : Nat) (source : Source) : Nat × Source :=
  let (word, source) := source.next
  let high := word.toNat * bound / 2 ^ (32 : Nat)
  let low := word.toNat * bound % 2 ^ (32 : Nat)
  if 2 ^ (32 : Nat) - bound < low then
    let (second, source) := source.next
    (high + (low + second.toNat * bound / 2 ^ (32 : Nat)) / 2 ^ (32 : Nat), source)
  else (high, source)

@[simp] theorem next_drawn (source : Source) : source.next.2.drawn = source.drawn + 1 := rfl

@[simp] theorem below_word (bound : Nat) (source : Source) :
    (source.below bound).2.word = source.word := by
  unfold below
  simp only
  split <;> rfl

/-- A draw takes one word, or two. -/
theorem below_drawn (bound : Nat) (source : Source) :
    source.drawn < (source.below bound).2.drawn ∧
      (source.below bound).2.drawn ≤ source.drawn + 2 := by
  unfold below
  simp only
  split <;> simp only [next_drawn] <;> omega

/-- A drawn number stays below its bound, also when a carry is added. -/
theorem below_lt {bound : Nat} (positive : 0 < bound) (small : bound ≤ 2 ^ (32 : Nat))
    (source : Source) : (source.below bound).1 < bound := by
  have range := (source.word source.drawn).toNat_lt
  have range' := (source.word (source.drawn + 1)).toNat_lt
  have product : (source.word source.drawn).toNat * bound ≤ (2 ^ (32 : Nat) - 1) * bound :=
    Nat.mul_le_mul_right _ (by omega)
  have second : (source.word (source.drawn + 1)).toNat * bound ≤ (2 ^ (32 : Nat) - 1) * bound :=
    Nat.mul_le_mul_right _ (by omega)
  rw [Nat.sub_mul] at product second
  unfold below next
  simp only
  split
  · next large => simp only; omega
  · simp only; omega

end Source

end FormFill
