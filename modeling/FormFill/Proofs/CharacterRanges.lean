import FormFill.Proofs.SelectorRoundTrip
import Mathlib.Data.Int.Range

/-! # Ranges of characters

A range picks the characters of its indices one after the other, from its start, or from the first
index when the start is missing, up to its end. Positions and lengths are differences of machine
integers that are taken for machine counts. Each of these steps could leave its range, but none does
when the indices lie in the signed 64-bit range.
-/

namespace FormFill

/-- The steps on machine integers that can leave their range. -/
inductive Overflow where
  | difference
  | count
deriving DecidableEq

namespace Index

/-- The difference of two machine integers. -/
def difference (left right : Int) : Except Overflow Int :=
  if least ≤ left - right ∧ left - right ≤ greatest then .ok (left - right)
  else .error .difference

/-- A machine integer as a machine count. -/
def count (i : Int) : Except Overflow Nat :=
  if 0 ≤ i ∧ i < Text.countLimit then .ok i.toNat else .error .count

/-- `position?`, with every step checked. -/
def checkedPosition : Index → Except Overflow (Option Nat)
  | some i =>
    if 1 ≤ i then do
      let before ← difference i 1
      let position ← count before
      return some position
    else return none
  | none => return none

theorem difference_of_positive {left right : Int} (positive : 0 ≤ right) (less : right ≤ left)
    (bounded : left ≤ greatest) : difference left right = .ok (left - right) := by
  have low : least ≤ 0 := by decide
  exact if_pos ⟨by omega, by omega⟩

theorem count_of_positive {i : Int} (positive : 0 ≤ i) (bounded : i ≤ greatest) :
    count i = .ok i.toNat := by
  have small : greatest < Text.countLimit := by decide
  exact if_pos ⟨positive, by omega⟩

theorem checkedPosition_eq {index : Index} (inRange : index.InRange) :
    index.checkedPosition = .ok index.position? := by
  cases index with
  | none => rfl
  | some i =>
    have bounded : i ≤ greatest := (inRange i rfl).2
    simp only [checkedPosition, position?]
    split
    · next positive =>
      have subtracted : difference i 1 = .ok (i - 1) :=
        difference_of_positive (by decide) positive bounded
      have counted : count (i - 1) = .ok (i - 1).toNat := count_of_positive (by omega) (by omega)
      simp only [subtracted, counted, bind, Except.bind, pure, Except.pure]
    · rfl

end Index

namespace Selector

/-- `character`, with every step checked. -/
def checkedCharacter (text : Text) (index : Index) : Except Overflow Text := do
  match ← index.checkedPosition with
  | some position => return text[position]?.toList
  | none => return []

/-- `before?`, with every step checked. -/
def checkedBefore : Index → Except Overflow (Option Int)
  | none => return some 0
  | some first =>
    if 1 ≤ first then do
      let before ← Index.difference first 1
      return some before
    else return none

/-- `range`, with every step checked. -/
def checkedRange (text : Text) (first last : Index) : Except Overflow Text := do
  match ← checkedBefore first, last with
  | some before, some last =>
    if before < last then
      let skipped ← Index.count before
      let length ← Index.difference last before
      let taken ← Index.count length
      return (text.drop skipped).take taken
    else return []
  | _, _ => return []

theorem checkedCharacter_eq (text : Text) {index : Index} (inRange : index.InRange) :
    checkedCharacter text index = .ok (character text index) := by
  rw [checkedCharacter, Index.checkedPosition_eq inRange, character]
  cases index.position? <;> rfl

/-- What stands before a range is a machine integer, and none that is negative. -/
theorem checkedBefore_eq {first : Index} (inRange : first.InRange) :
    checkedBefore first = .ok (before? first) ∧
      ∀ before ∈ before? first, 0 ≤ before ∧ before ≤ Index.greatest := by
  cases first with
  | none => exact ⟨rfl, by rintro before ⟨⟩; decide⟩
  | some first =>
    have bounded : first ≤ Index.greatest := (inRange first rfl).2
    simp only [checkedBefore, before?]
    split
    · next positive =>
      have subtracted : Index.difference first 1 = .ok (first - 1) :=
        Index.difference_of_positive (by decide) positive bounded
      refine ⟨by rw [subtracted]; rfl, ?_⟩
      rintro before ⟨⟩
      omega
    · exact ⟨rfl, by simp⟩

theorem checkedRange_eq (text : Text) {first last : Index} (firstInRange : first.InRange)
    (lastInRange : last.InRange) :
    checkedRange text first last = .ok (range text first last) := by
  obtain ⟨checked, bounds⟩ := checkedBefore_eq firstInRange
  cases found : before? first with
  | none => simp only [checkedRange, range, checked, found]; rfl
  | some before =>
    obtain ⟨positive, bounded⟩ := bounds before found
    cases last with
    | none => simp only [checkedRange, range, checked, found]; rfl
    | some last =>
      have lastBounded : last ≤ Index.greatest := (lastInRange last rfl).2
      simp only [checkedRange, range, checked, found, bind, Except.bind, pure, Except.pure]
      split
      · next less =>
        have skipped : Index.count before = .ok before.toNat :=
          Index.count_of_positive positive bounded
        have length : Index.difference last before = .ok (last - before) :=
          Index.difference_of_positive positive (by omega) lastBounded
        have taken : Index.count (last - before) = .ok (last - before).toNat :=
          Index.count_of_positive (by omega) (by omega)
        simp only [skipped, length, taken]
      · rfl

/-- The front of a text is put together from its single characters. -/
theorem take_eq_flatMap (text : Text) (count : Nat) :
    text.take count = (List.range count).flatMap fun position => text[position]?.toList := by
  induction count with
  | zero => rfl
  | succ count ih => simp [List.take_add_one, List.range_succ, ih]

section Ranges

variable (text : Text) {first : Index} {final : Int}

/-- Characters before the start are dropped, and those up to the end are taken. -/
theorem range_eq_take (positive : 1 ≤ first.getD 1) :
    range text first (some final) =
      (text.drop (first.getD 1 - 1).toNat).take (final + 1 - first.getD 1).toNat := by
  have before : before? first = some (first.getD 1 - 1) := by
    cases first with
    | none => rfl
    | some first => exact if_pos positive
  simp only [range, before]
  split
  · congr 2
    omega
  · next less =>
    have nothing : (final + 1 - first.getD 1).toNat = 0 := by omega
    rw [nothing, List.take_zero]

theorem range_eq_flatMap (positive : 1 ≤ first.getD 1) :
    range text first (some final) =
      (Int.range (first.getD 1) (final + 1)).flatMap fun i => character text (some i) := by
  rw [range_eq_take text positive, take_eq_flatMap, Int.range, List.flatMap_map]
  congr 1
  funext offset
  have position : Index.position? (some (first.getD 1 + offset)) =
      some ((first.getD 1 - 1).toNat + offset) := by
    have inside : 1 ≤ first.getD 1 + (offset : Int) := by omega
    rw [Index.position?, if_pos inside]
    congr 1
    omega
  rw [character, position, List.getElem?_drop]

/-- The end of a range can be moved back to the end of the text. -/
theorem range_min (positive : 1 ≤ first.getD 1) :
    range text first (some (min final text.length)) = range text first (some final) := by
  rw [range_eq_take text positive, range_eq_take text positive, List.take_eq_take_iff,
    List.length_drop]
  omega

end Ranges

/-- A range is the row of the characters from its start, or from the first one when the start is
missing, up to its end, and of these only those in the text count. It is empty without an end, with
a start below one and with an end before the start. No step on the way overflows, for any machine
integers. -/
theorem apply_charRange (text : Text) {first last : Index} (firstInRange : first.InRange)
    (lastInRange : last.InRange) :
    let start := first.getD 1
    let picked := apply text (.charRange first last)
    let characters (final : Int) :=
      (Int.range start (final + 1)).flatMap fun i => apply text (.charAt (some i))
    (∀ final, last = some final → 1 ≤ start →
        picked = characters final ∧ picked = characters (min final text.length)) ∧
      (last = none ∨ start ≤ 0 ∨ (∃ final, last = some final ∧ final < start) → picked = []) ∧
      checkedRange text first last = .ok picked ∧
      ∀ index : Index, index.InRange →
        checkedCharacter text index = .ok (apply text (.charAt index)) := by
  intro start picked characters
  refine ⟨?_, ?_, checkedRange_eq text firstInRange lastInRange,
    fun index => checkedCharacter_eq text⟩
  · rintro final rfl positive
    have whole : ∀ final, range text first (some final) = characters final :=
      fun final => range_eq_flatMap text positive
    exact ⟨whole final, (range_min text positive).symm.trans (whole _)⟩
  · intro empty
    change range text first last = []
    by_cases positive : 1 ≤ start
    · rcases empty with rfl | low | ⟨final, rfl, below⟩
      · cases found : before? first <;> simp only [range, found]
      · omega
      · have nothing : (final + 1 - first.getD 1).toNat = 0 := by omega
        rw [range_eq_take text positive, nothing, List.take_zero]
    · have unstarted : before? first = none := by
        cases first with
        | none => exact absurd (by decide) positive
        | some first => exact if_neg positive
      simp only [range, unstarted]

/-- The greatest end is moved back to the end of the text, and of the two extreme indices the least
one comes before the greatest. -/
theorem apply_charRange_extreme :
    let text := "Ωmega".toList
    let second : Index := some 2
    let greatest : Index := some Index.greatest
    let least : Index := some Index.least
    (second.InRange ∧ greatest.InRange ∧ least.InRange) ∧
      apply text (.charRange second greatest) = "mega".toList ∧
      checkedRange text second greatest = .ok "mega".toList ∧
      apply text (.charRange greatest least) = [] ∧ checkedRange text greatest least = .ok [] ∧
      checkedRange text least greatest = .ok [] := by
  intro text second greatest least
  have secondInRange : second.InRange := by decide
  have greatestInRange : greatest.InRange := by decide
  have leastInRange : least.InRange := by decide
  obtain ⟨whole, -, checked, -⟩ := apply_charRange text secondInRange greatestInRange
  obtain ⟨-, backwards, checkedBackwards, -⟩ := apply_charRange text greatestInRange leastInRange
  obtain ⟨-, low, checkedLow, -⟩ := apply_charRange text leastInRange greatestInRange
  have mega : apply text (.charRange second greatest) = "mega".toList :=
    (whole Index.greatest rfl (by decide)).2.trans (by decide)
  have none : apply text (.charRange greatest least) = [] :=
    backwards (.inr (.inr ⟨Index.least, rfl, by decide⟩))
  have early : apply text (.charRange least greatest) = [] := low (.inr (.inl (by decide)))
  rw [mega] at checked
  rw [none] at checkedBackwards
  rw [early] at checkedLow
  exact ⟨⟨secondInRange, greatestInRange, leastInRange⟩, mega, checked, none, checkedBackwards,
    checkedLow⟩

end Selector

end FormFill
