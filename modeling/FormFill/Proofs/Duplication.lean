import FormFill.Proofs.Explanation
import FormFill.Proofs.RuleRoundTrip
import FormFill.Random.ChaCha
import Mathlib.Algebra.Group.Nat.Defs

/-! # Duplication

A name with a digit run in brackets behind it asks for copies of the field of that name or, when no
such field is set, of the name itself. The digit run says how many, whatever its length and leading
zeros; a number that no count holds, or that memory has no room for, asks for none.
-/

namespace FormFill

namespace Text

/-- The count that a digit run gives for units of some size: its value, when counts hold that and
the copies fit in memory. -/
theorem boundedCount_countOf (size : Nat) (run : Text) :
    boundedCount size (countOf run) =
      if decimalValue run < 2 ^ 64 ∧ decimalValue run * size ≤ 2 ^ 63 - 1 then decimalValue run
      else 0 := by
  rw [boundedCount, Nat.mul_comm]
  unfold countOf
  split
  · next counted =>
    have held : decimalValue run < 2 ^ 64 := counted
    simp only [held, true_and]
    rfl
  · next uncounted =>
    have unheld : ¬ decimalValue run < 2 ^ 64 := uncounted
    rw [ite_self, if_neg fun both => unheld both.1]

end Text

/-- What a duplication of a name copies, and how its segment is labelled: the display text of the
field of that name if the field is set, otherwise the name. -/
inductive Duplicates (fields : Option FieldMap) (name : Text) : Text → SegmentKind → Prop
  | field {known : FieldMap} {value : FieldValue} (given : fields = some known)
      (held : known.get? name = some value) (set : value.isTruthy) :
      Duplicates fields name value.display .duplicateField
  | name (unset : ∀ known ∈ fields, ∀ value ∈ known.get? name, value.isTruthy = false) :
      Duplicates fields name name .duplicate

namespace Repetition

theorem exists_duplicates_resolve (repetition : Repetition) (fields : Option FieldMap) :
    ∃ unit, Duplicates fields repetition.unit unit (repetition.resolve fields).kind ∧
      (repetition.resolve fields).output = unit.repeated repetition.count := by
  unfold resolve
  split
  · next value found =>
    obtain ⟨looked, set⟩ := Option.filter_eq_some_iff.mp found
    obtain ⟨known, given, held⟩ := Option.bind_eq_some_iff.mp looked
    exact ⟨value.display, .field given held set, rfl⟩
  · next unfound =>
    refine ⟨repetition.unit, .name ?_, rfl⟩
    intro known given value held
    have looked : fields.bind (·.get? repetition.unit) = some value :=
      Option.bind_eq_some_iff.mpr ⟨known, given, held⟩
    rw [looked] at unfound
    simpa using unfound

end Repetition

namespace Text

/-- A name with a bracketed digit run behind it is a repetition of the name. -/
theorem IsName.parse_bracketed {name run : Text} (named : name.IsName) (counted : run ≠ [])
    (digits : ∀ c ∈ run, isDigit c = true) :
    Generator.parse (name ++ '[' :: run ++ [']']) = .duplicate ⟨name, countOf run⟩ := by
  apply Generator.parse_repetition
  · exact named.not_isRandomForm run
  · exact Repetition.parse?_bracketed named.nonempty named.line counted digits

theorem IsName.ofRule_bracketed {name run : Text} (named : name.IsName)
    (digits : ∀ c ∈ run, isDigit c = true) :
    Segment.ofRule ('(' :: (name ++ '[' :: run ++ [']']) ++ [')']) =
      [.group (name ++ '[' :: run ++ [']'])] := by
  have noClosing : ')' ∉ run := fun member => absurd (digits ')' member) (by decide)
  have enclosed : ')' ∉ name ++ '[' :: run ++ [']'] := by simp [named.enclosed, noClosing]
  exact Segment.ofRule_group [] (by simp) enclosed

/-- A rule that is a bracketed name resolves as the repetition of the name and draws nothing. -/
theorem IsName.generate_bracketed {name run : Text} (named : name.IsName) (counted : run ≠ [])
    (digits : ∀ c ∈ run, isDigit c = true) (fields : Option FieldMap) (source : Source) :
    generate ('(' :: (name ++ '[' :: run ++ [']']) ++ [')']) fields source =
      (((⟨name, countOf run⟩ : Repetition).resolve fields).output, source) := by
  rw [generate_of_single (named.ofRule_bracketed digits), Segment.resolve,
    named.parse_bracketed counted digits]
  rfl

end Text

/-- A duplication gives exactly as many copies as its digit run says, of the field's display text if
the field is set and of the name otherwise. Its one segment is labelled accordingly, and nothing is
drawn. -/
theorem generate_duplication {name run : Text} (named : name.IsName) (counted : run ≠ [])
    (digits : ∀ c ∈ run, Text.isDigit c = true) (fields : Option FieldMap) (source : Source) :
    let rule := '(' :: (name ++ '[' :: run ++ [']']) ++ [')']
    ∃ unit kind, Duplicates fields name unit kind ∧
      let asked := Text.decimalValue run
      let count := if asked < 2 ^ 64 ∧ asked * unit.byteSize ≤ 2 ^ 63 - 1 then asked else 0
      let copies := (List.replicate count unit).flatten
      generate rule fields source = (copies, source) ∧
        (explain rule fields source).segments = [⟨rule, kind, copies⟩] := by
  intro rule
  have single : Segment.ofRule rule = [.group (name ++ '[' :: run ++ [']'])] :=
    named.ofRule_bracketed digits
  have resolved : (Segment.group (name ++ '[' :: run ++ [']'])).resolve fields source =
      ((⟨name, Text.countOf run⟩ : Repetition).resolve fields, source) := by
    rw [Segment.resolve, named.parse_bracketed counted digits]
    rfl
  obtain ⟨unit, labelled, copied⟩ :=
    (⟨name, Text.countOf run⟩ : Repetition).exists_duplicates_resolve fields
  rw [Text.repeated, Text.boundedCount_countOf, Text.copies_eq_flatten] at copied
  refine ⟨unit, _, labelled, ?_, ?_⟩
  · rw [generate_of_single single, resolved, copied]
  · rw [explain, single]
    simp only [SegmentTrace.ofSegments, resolved, copied]
    rfl

/-- A name with a bracket of its own, a count with leading zeros, and a field whose text reads like
a rule. -/
theorem generate_duplication_bracketed :
    let name : Text := "a[3]".toList
    let run : Text := "0002".toList
    let fields : FieldMap := .ofList [(name, .text "(é)".toList)]
    let rule := '(' :: (name ++ '[' :: run ++ [']']) ++ [')']
    (name.IsName ∧ run ≠ [] ∧ ∀ c ∈ run, Text.isDigit c = true) ∧
      generate rule (some fields) (.seeded 7) = ("(é)(é)".toList, .seeded 7) ∧
      (explain rule (some fields) (.seeded 7)).segments =
        [⟨"(a[3][0002])".toList, .duplicateField, "(é)(é)".toList⟩] := by
  intro name run fields rule
  have named : name.IsName := by decide
  have counted : run ≠ [] := by decide
  have digits : ∀ c ∈ run, Text.isDigit c = true := List.all_eq_true.mp (by decide)
  have present : fields.get? name = some (.text "(é)".toList) := by decide
  obtain ⟨unit, kind, copied, text, record⟩ :=
    generate_duplication named counted digits (some fields) (.seeded 7)
  cases copied with
  | field given held set =>
    cases given
    cases present.symm.trans held
    exact ⟨⟨named, counted, digits⟩, text, record⟩
  | name unset => exact absurd (unset fields rfl _ present) (by decide)

end FormFill
