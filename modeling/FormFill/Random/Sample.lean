import FormFill.Random.Source

/-! # Random text

Random digits and letters are drawn one character at a time, uniformly from a fixed alphabet. A
count that no text in memory could have asks for nothing.
-/

namespace FormFill

/-- What random characters are drawn from. -/
inductive Alphabet where
  | digits
  | letters
deriving DecidableEq

namespace Alphabet

/-- The characters of an alphabet, in order. -/
def characters : Alphabet → Text
  | .digits => "0123456789".toList
  | .letters => "abcdefghijklmnopqrstuvwxyz".toList

/-- The character at a drawn place. -/
def character (alphabet : Alphabet) (place : Nat) : Char := alphabet.characters.getD place '?'

end Alphabet

namespace Source

/-- Draw exactly `count` characters. -/
def sample (alphabet : Alphabet) : Nat → Source → Text × Source
  | 0, source => ([], source)
  | count + 1, source =>
    let (place, source) := source.below alphabet.characters.length
    let (text, source) := sample alphabet count source
    (alphabet.character place :: text, source)

/-- Draw `count` characters, or none when they could not be held in memory. -/
def randomText (alphabet : Alphabet) (count : Nat) (source : Source) : Text × Source :=
  source.sample alphabet (Text.boundedCount 1 count)

@[simp] theorem length_sample (alphabet : Alphabet) (count : Nat) (source : Source) :
    (source.sample alphabet count).1.length = count := by
  induction count generalizing source with
  | zero => rfl
  | succ count ih => simp [sample, ih]

@[simp] theorem sample_word (alphabet : Alphabet) (count : Nat) (source : Source) :
    (source.sample alphabet count).2.word = source.word := by
  induction count generalizing source with
  | zero => rfl
  | succ count ih => simp [sample, ih]

/-- A character takes one word, or two. -/
theorem drawn_sample (alphabet : Alphabet) (count : Nat) (source : Source) :
    source.drawn + count ≤ (source.sample alphabet count).2.drawn ∧
      (source.sample alphabet count).2.drawn ≤ source.drawn + 2 * count := by
  induction count generalizing source with
  | zero => exact ⟨Nat.le_refl _, Nat.le_refl _⟩
  | succ count ih =>
    have first := below_drawn alphabet.characters.length source
    have others := ih (source.below alphabet.characters.length).2
    simp only [sample]
    omega

/-- Drawing in two parts gives the same characters as drawing at once. -/
theorem sample_add (alphabet : Alphabet) (first second : Nat) (source : Source) :
    source.sample alphabet (first + second) =
      ((source.sample alphabet first).1 ++
          ((source.sample alphabet first).2.sample alphabet second).1,
        ((source.sample alphabet first).2.sample alphabet second).2) := by
  induction first generalizing source with
  | zero => simp [sample]
  | succ first ih => rw [Nat.succ_add]; simp [sample, ih]

end Source

end FormFill
