import FormFill.Rule.Selector
import Mathlib.Data.List.TakeWhile

/-! # The words that a selector picks

A text is white space and then words, each with white space behind it that only the last word may
lack. This spacing of a text is said here without the split that finds the words. Every text has
exactly one spacing, and a word index picks a word of that spacing, so the white space between the
words is never seen.
-/

namespace FormFill

/-- A word and the white space behind it. -/
structure SpacedWord where
  word : Text
  after : Text
deriving DecidableEq

namespace SpacedWord

/-- The characters of a word and of the white space behind it. -/
def render (row : SpacedWord) : Text := row.word ++ row.after

/-- Whether a word can stand before further ones. -/
structure Fits (row : SpacedWord) (further : List SpacedWord) : Prop where
  nonempty : row.word ≠ []
  solid : ∀ c ∈ row.word, Text.isBlank c = false
  blank : ∀ c ∈ row.after, Text.isBlank c = true
  apart : row.after = [] → further = []

end SpacedWord

/-- White space and then words, each with the white space behind it. -/
structure Spacing where
  before : Text
  rows : List SpacedWord
deriving DecidableEq

namespace Spacing

open SpacedWord (Fits)
open Text (isBlank)

/-- The words alone. -/
def words (spacing : Spacing) : List Text := spacing.rows.map (·.word)

/-- The text of words that stand one after another. -/
def renderRows (rows : List SpacedWord) : Text := rows.flatMap SpacedWord.render

/-- Every word fits before the words after it. -/
def WellPlaced : List SpacedWord → Prop
  | [] => True
  | row :: rows => row.Fits rows ∧ WellPlaced rows

/-- The spacing of a text. -/
structure IsOf (spacing : Spacing) (text : Text) : Prop where
  whole : spacing.before ++ renderRows spacing.rows = text
  blank : ∀ c ∈ spacing.before, isBlank c = true
  placed : WellPlaced spacing.rows

variable {row : SpacedWord} {rows : List SpacedWord} {spacing : Spacing} {text : Text}

@[simp] theorem renderRows_nil : renderRows [] = [] := rfl

@[simp] theorem renderRows_cons (row : SpacedWord) (rows : List SpacedWord) :
    renderRows (row :: rows) = row.word ++ (row.after ++ renderRows rows) :=
  List.append_assoc ..

/-- Words begin with a character of the first one. -/
theorem WellPlaced.front (placed : WellPlaced rows) :
    ∀ c ∈ (renderRows rows).head?, isBlank c = false := by
  cases rows with
  | nil => simp
  | cons row rows =>
    obtain ⟨c, more, word⟩ := List.exists_cons_of_ne_nil placed.1.nonempty
    intro d first
    obtain rfl : c = d := by simpa [word] using first
    exact placed.1.solid c (by simp [word])

/-- What stands behind a word begins with white space. -/
theorem WellPlaced.behind (placed : WellPlaced (row :: rows)) :
    ∀ c ∈ (row.after ++ renderRows rows).head?, isBlank c = true := by
  cases after : row.after with
  | nil => simp [placed.1.apart after]
  | cons d more =>
    intro c first
    obtain rfl : d = c := by simpa using first
    exact placed.1.blank d (by simp [after])

theorem renderRows_ne_nil (placed : WellPlaced (row :: rows)) : renderRows (row :: rows) ≠ [] := by
  simp [placed.1.nonempty]

/-- The words of a text are those of its spacing. -/
theorem WellPlaced.words_renderRows (placed : WellPlaced rows) :
    Text.words (renderRows rows) = rows.map (·.word) := by
  induction rows with
  | nil => rfl
  | cons row rows ih =>
    have single : Text.words row.word = [row.word] :=
      Text.words_of_solid placed.1.nonempty placed.1.solid
    rw [renderRows_cons, List.map_cons, ← ih placed.2]
    cases after : row.after with
    | nil =>
      rw [placed.1.apart after]
      simpa using single
    | cons c more =>
      have blank : ∀ d ∈ c :: more, isBlank d = true := after ▸ placed.1.blank
      obtain ⟨first, others⟩ := List.forall_mem_cons.mp blank
      rw [List.cons_append, Text.words_append_blank first, Text.words_blank_append others, single,
        List.singleton_append]

theorem IsOf.words_eq (isOf : spacing.IsOf text) : text.words = spacing.words := by
  rw [← isOf.whole, Text.words_blank_append isOf.blank, isOf.placed.words_renderRows, words]

/-- A text is cut where the run at its front ends. -/
private theorem exists_run (keep : Char → Bool) (text : Text) :
    ∃ run rest, run ++ rest = text ∧ (∀ c ∈ run, keep c = true) ∧
      ∀ c ∈ rest.head?, keep c = false :=
  ⟨text.takeWhile keep, text.dropWhile keep, List.takeWhile_append_dropWhile,
    fun _ member => List.mem_takeWhile_imp member, Text.dropWhile_stop keep text⟩

/-- A text that does not begin with white space is cut into words. -/
theorem exists_rows (text : Text) (opens : ∀ c ∈ text.head?, isBlank c = false) :
    ∃ rows, renderRows rows = text ∧ WellPlaced rows := by
  obtain ⟨word, back, whole, solid, stop⟩ := exists_run (!isBlank ·) text
  obtain ⟨after, tail, rfl, blank, further⟩ := exists_run isBlank back
  cases word with
  | nil =>
    -- What stands in front is neither white space nor the first character of a word.
    obtain rfl : after ++ tail = text := whole
    cases front : after ++ tail with
    | nil => exact ⟨[], rfl, trivial⟩
    | cons c rest =>
      rw [front] at stop
      have blank : isBlank c = true := by simpa using stop c rfl
      have solid : isBlank c = false := opens c (by rw [front]; rfl)
      exact absurd (blank.symm.trans solid) Bool.noConfusion
  | cons c more =>
    have shorter : tail.length < text.length := by
      rw [← whole]
      simp only [List.length_append, List.length_cons]
      omega
    obtain ⟨rows, rendered, placed⟩ := exists_rows tail further
    have fits : Fits ⟨c :: more, after⟩ rows := by
      refine ⟨List.cons_ne_nil _ _, by simpa using solid, blank, fun missing => ?_⟩
      -- Only white space ends a word before the text does.
      have missing : after = [] := missing
      cases rows with
      | nil => rfl
      | cons row rows =>
        obtain ⟨d, others, begins⟩ := List.exists_cons_of_ne_nil (renderRows_ne_nil placed)
        have first : d ∈ (after ++ tail).head? := by simp [missing, ← rendered, begins]
        have blank : isBlank d = true := by simpa using stop d first
        have solid : isBlank d = false := placed.front d (by rw [begins]; rfl)
        exact absurd (blank.symm.trans solid) Bool.noConfusion
    refine ⟨⟨c :: more, after⟩ :: rows, ?_, fits, placed⟩
    rw [renderRows_cons, rendered, whole]
termination_by text.length
decreasing_by exact shorter

theorem exists_isOf (text : Text) : ∃ spacing : Spacing, spacing.IsOf text := by
  obtain ⟨before, back, whole, blank, stop⟩ := exists_run isBlank text
  obtain ⟨rows, rfl, placed⟩ := exists_rows back stop
  exact ⟨⟨before, rows⟩, whole, blank, placed⟩

/-- Where a run ends is fixed by what stands behind it. -/
private theorem run_unique (keep : Char → Bool) {left right leftRest rightRest : Text}
    (leftInside : ∀ c ∈ left, keep c = true) (rightInside : ∀ c ∈ right, keep c = true)
    (leftStop : ∀ c ∈ leftRest.head?, keep c = false)
    (rightStop : ∀ c ∈ rightRest.head?, keep c = false)
    (same : left ++ leftRest = right ++ rightRest) : left = right ∧ leftRest = rightRest := by
  obtain rfl : left = right := by
    rw [← Text.takeWhile_run leftInside leftStop, same, Text.takeWhile_run rightInside rightStop]
  exact ⟨rfl, List.append_cancel_left same⟩

theorem WellPlaced.unique {left right : List SpacedWord} (leftPlaced : WellPlaced left)
    (rightPlaced : WellPlaced right) (same : renderRows left = renderRows right) :
    left = right := by
  induction left generalizing right with
  | nil =>
    cases right with
    | nil => rfl
    | cons row rows => exact absurd same.symm (renderRows_ne_nil rightPlaced)
  | cons row rows ih =>
    cases right with
    | nil => exact absurd same (renderRows_ne_nil leftPlaced)
    | cons other others =>
      rw [renderRows_cons, renderRows_cons] at same
      obtain ⟨word, behind⟩ := run_unique (!isBlank ·)
        (by simpa using leftPlaced.1.solid) (by simpa using rightPlaced.1.solid)
        (by simpa using leftPlaced.behind) (by simpa using rightPlaced.behind) same
      obtain ⟨after, further⟩ := run_unique isBlank leftPlaced.1.blank rightPlaced.1.blank
        leftPlaced.2.front rightPlaced.2.front behind
      obtain rfl := ih leftPlaced.2 rightPlaced.2 further
      cases row
      cases other
      cases word
      cases after
      rfl

theorem IsOf.unique {left right : Spacing} (leftOf : left.IsOf text) (rightOf : right.IsOf text) :
    left = right := by
  obtain ⟨before, whole⟩ := run_unique isBlank leftOf.blank rightOf.blank leftOf.placed.front
    rightOf.placed.front (leftOf.whole.trans rightOf.whole.symm)
  have rows := leftOf.placed.unique rightOf.placed whole
  cases left
  cases right
  cases before
  cases rows
  rfl

end Spacing

namespace Index

/-- The indices that have a position are the positive ones. -/
theorem position?_eq_some_iff {index : Index} {n : Nat} :
    index.position? = some n ↔ index = some ((n : Int) + 1) := by
  cases index with
  | none => simp [position?]
  | some i =>
    have positions : (if 1 ≤ i then some (i - 1).toNat else none) = some n ↔ i = n + 1 := by
      split <;> simp <;> omega
    simpa [position?] using positions

end Index

namespace Selector

/-- Every text has exactly one spacing. A word index picks the word of that number in the spacing,
and every other index, missing or of any size, picks nothing; so texts whose spacings differ only in
white space are alike to every index. -/
theorem apply_word (text : Text) :
    (∃! spacing : Spacing, spacing.IsOf text) ∧
      ∀ spacing : Spacing, spacing.IsOf text →
        (∀ (n : Nat) (inside : n < spacing.words.length),
          (word (some (n + 1))).apply text = spacing.words[n]) ∧
        (∀ index : Index, (∀ n < spacing.words.length, index ≠ some ((n : Int) + 1)) →
          (word index).apply text = []) ∧
        ∀ (other : Text) (otherSpacing : Spacing), otherSpacing.IsOf other →
          otherSpacing.words = spacing.words →
            ∀ index : Index, (word index).apply other = (word index).apply text := by
  obtain ⟨found, foundOf⟩ := Spacing.exists_isOf text
  refine ⟨⟨found, foundOf, fun other otherOf => otherOf.unique foundOf⟩, fun spacing isOf => ?_⟩
  have words : text.words = spacing.words := isOf.words_eq
  refine ⟨fun n inside => ?_, fun index outside => ?_,
    fun other otherSpacing otherOf same index => ?_⟩
  · have position : Index.position? (some ((n : Int) + 1)) = some n :=
      Index.position?_eq_some_iff.mpr rfl
    simp [apply, nthWord, position, words, inside]
  · simp only [apply, nthWord]
    cases position : index.position? with
    | none => rfl
    | some n =>
      have beyond : spacing.words.length ≤ n :=
        Nat.le_of_not_lt fun inside => outside n inside (Index.position?_eq_some_iff.mp position)
      simp [words, beyond]
  · have otherWords : other.words = text.words := otherOf.words_eq.trans (same.trans words.symm)
    simp only [apply, nthWord, otherWords]

example : (word (some 2)).apply "\u00a0ab\u3000\n c\t".toList = ['c'] := by decide

end Selector

end FormFill
