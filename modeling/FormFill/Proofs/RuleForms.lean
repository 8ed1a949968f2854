import FormFill.Rule.Generator

/-! # The forms of group contents

The contents of a group are of a random form, of a repetition form, of a selector form, or a plain
field name. Each form is said here by the shape of the text alone, and each reader accepts exactly
the texts of its form. A text can have several forms; the readers are tried in a fixed order.
-/

namespace FormFill

namespace Text

/-- Contents that open with `rn[` or `rc[` and close with a bracket. -/
def IsRandomForm (content : Text) : Prop :=
  ∃ kind inside, (kind = 'n' ∨ kind = 'c') ∧ content = 'r' :: kind :: '[' :: inside ++ [']']

/-- Contents that bracket a digit run after a nonempty unit on one line. -/
def IsRepetitionForm (content : Text) : Prop :=
  ∃ unit run, unit ≠ [] ∧ '\n' ∉ unit ∧ run ≠ [] ∧ (∀ c ∈ run, isDigit c = true) ∧
    content = unit ++ '[' :: run ++ [']']

/-- Contents on one line that bracket `w` or `ch`, and more, after a nonempty field name. -/
def IsSelectorForm (content : Text) : Prop :=
  ∃ field kind spec, field ≠ [] ∧ (kind = ['w'] ∨ kind = ['c', 'h']) ∧ spec ≠ [] ∧
    '\n' ∉ content ∧ content = field ++ '[' :: (kind ++ spec) ++ [']']

/-- Around its last occurrence a character divides a text in one way only. -/
theorem last_occurrence_unique {c : Char} {left right before after : Text} (leftLast : c ∉ after)
    (rightLast : c ∉ right) (same : before ++ c :: after = left ++ c :: right) :
    before = left ∧ after = right := by
  rcases List.append_eq_append_iff.mp same with ⟨gap, rfl, joined⟩ | ⟨gap, rfl, joined⟩
  · cases gap with
    | nil => exact ⟨(List.append_nil _).symm, (List.cons.inj joined).2⟩
    | cons d gap =>
      obtain ⟨-, rfl⟩ := List.cons.inj joined
      exact absurd (by simp) leftLast
  · cases gap with
    | nil => exact ⟨List.append_nil _, (List.cons.inj joined).2.symm⟩
    | cons d gap =>
      obtain ⟨-, rfl⟩ := List.cons.inj joined
      exact absurd (by simp) rightLast

end Text

namespace Generator

private theorem exists_of_getLast? {c d : Char} {rest : Text} (different : c ≠ d)
    (last : (c :: rest).getLast? = some d) : ∃ inside, rest = inside ++ [d] := by
  obtain ⟨front, whole⟩ := List.getLast?_eq_some_iff.mp last
  cases front with
  | nil => exact absurd (List.cons.inj whole).1 different
  | cons e front => exact ⟨front, (List.cons.inj whole).2⟩

theorem random?_digits (inside : Text) :
    random? ('r' :: 'n' :: '[' :: inside ++ [']']) =
      some (.randomDigits (Text.firstCount ('r' :: 'n' :: '[' :: inside ++ [']']))) := by
  have last : ('r' :: 'n' :: '[' :: inside ++ [']']).getLast? = some ']' := List.getLast?_concat
  exact if_pos last

theorem random?_letters (inside : Text) :
    random? ('r' :: 'c' :: '[' :: inside ++ [']']) =
      some (.randomLetters (Text.firstCount ('r' :: 'c' :: '[' :: inside ++ [']']))) := by
  have last : ('r' :: 'c' :: '[' :: inside ++ [']']).getLast? = some ']' := List.getLast?_concat
  exact if_pos last

theorem random?_eq_none_iff {content : Text} :
    random? content = none ↔ ¬ content.IsRandomForm := by
  constructor
  · rintro unread ⟨kind, inside, kinds, rfl⟩
    rcases kinds with rfl | rfl
    · rw [random?_digits] at unread
      contradiction
    · rw [random?_letters] at unread
      contradiction
  · intro other
    unfold random?
    split
    · next last =>
      split
      · next rest =>
        simp only [List.getLast?_cons_cons] at last
        obtain ⟨inside, rfl⟩ := exists_of_getLast? (by decide) last
        exact absurd ⟨'n', inside, .inl rfl, rfl⟩ other
      · next rest =>
        simp only [List.getLast?_cons_cons] at last
        obtain ⟨inside, rfl⟩ := exists_of_getLast? (by decide) last
        exact absurd ⟨'c', inside, .inr rfl, rfl⟩ other
      · rfl
    · rfl

instance (content : Text) : Decidable content.IsRandomForm :=
  decidable_of_iff (¬ random? content = none) (by rw [random?_eq_none_iff, Classical.not_not])

end Generator

namespace Repetition

theorem parse?_eq_none_iff {content : Text} :
    parse? content = none ↔ ¬ content.IsRepetitionForm := by
  constructor
  · rintro unread ⟨unit, run, nonempty, line, counted, digits, rfl⟩
    rw [parse?_bracketed nonempty line counted digits] at unread
    contradiction
  · intro other
    cases parsed : parse? content with
    | none => rfl
    | some repetition =>
      obtain ⟨run, whole, nonempty, line, counted, digits, -⟩ := eq_of_parse?_eq_some parsed
      exact absurd ⟨repetition.unit, run, nonempty, line, counted, digits, whole⟩ other

instance (content : Text) : Decidable content.IsRepetitionForm :=
  decidable_of_iff (¬ parse? content = none) (by rw [parse?_eq_none_iff, Classical.not_not])

end Repetition

namespace Generator

/-- A repetition that has no random form is repeated. -/
theorem parse_repetition {repetition : Repetition} {content : Text}
    (notRandom : ¬ content.IsRandomForm) (read : Repetition.parse? content = some repetition) :
    parse content = .duplicate repetition := by
  unfold parse
  rw [random?_eq_none_iff.mpr notRandom, read]

/-- Contents of neither form are an expression. -/
theorem parse_reference {content : Text} (notRandom : ¬ content.IsRandomForm)
    (notRepetition : ¬ content.IsRepetitionForm) :
    parse content = .reference (Expression.parse content) := by
  unfold parse
  rw [random?_eq_none_iff.mpr notRandom, Repetition.parse?_eq_none_iff.mpr notRepetition]

end Generator

namespace Expression

/-- A selector opens with a bracket, `w` or `ch`, and at least one more character. -/
theorem opening?_isSome_iff {text : Text} :
    (opening? text).isSome ↔
      ∃ kind spec, (kind = ['w'] ∨ kind = ['c', 'h']) ∧ spec ≠ [] ∧ text = '[' :: (kind ++ spec) := by
  constructor
  · intro opened
    unfold opening? at opened
    split at opened
    · next c spec => exact ⟨['w'], c :: spec, .inl rfl, List.cons_ne_nil _ _, rfl⟩
    · next c spec => exact ⟨['c', 'h'], c :: spec, .inr rfl, List.cons_ne_nil _ _, rfl⟩
    · contradiction
  · rintro ⟨kind, spec, kinds, nonempty, rfl⟩
    cases spec with
    | nil => contradiction
    | cons c spec => rcases kinds with rfl | rfl <;> rfl

theorem lastOpening?_eq_none_iff {text : Text} :
    lastOpening? text = none ↔ ∀ front back, text = front ++ back → opening? back = none := by
  induction text with
  | nil =>
    refine ⟨fun _ front back whole => ?_, fun _ => rfl⟩
    obtain ⟨-, rfl⟩ := List.append_eq_nil_iff.mp whole.symm
    rfl
  | cons c rest ih =>
    constructor
    · intro closed front back whole
      cases later : lastOpening? rest with
      | some found => simp [lastOpening?, later] at closed
      | none =>
        cases front with
        | nil =>
          subst whole
          simpa [lastOpening?, later] using closed
        | cons d front =>
          obtain ⟨rfl, rfl⟩ := List.cons.inj whole
          exact ih.mp later front back rfl
    · intro closed
      have later : lastOpening? rest = none := by
        refine ih.mpr fun front back whole => closed (c :: front) back ?_
        rw [whole, List.cons_append]
      simp [lastOpening?, later, closed [] (c :: rest) rfl]

/-- Text in front of the last opening joins the field. -/
theorem lastOpening?_append (front : Text) {back field : Text} {selector : Selector}
    (found : lastOpening? back = some (field, selector)) :
    lastOpening? (front ++ back) = some (front ++ field, selector) := by
  induction front with
  | nil => exact found
  | cons c front ih => simp [lastOpening?, ih]

theorem split?_eq_none_iff {text : Text} :
    split? text = none ↔ ∀ front back, front ≠ [] → text = front ++ back → opening? back = none := by
  cases text with
  | nil =>
    refine ⟨fun _ front back nonempty whole => ?_, fun _ => rfl⟩
    exact absurd (List.append_eq_nil_iff.mp whole.symm).1 nonempty
  | cons c rest =>
    simp only [split?, Option.map_eq_none_iff, lastOpening?_eq_none_iff]
    constructor
    · rintro closed front back nonempty whole
      cases front with
      | nil => contradiction
      | cons d front => exact closed front back (List.cons.inj whole).2
    · rintro closed front back rfl
      exact closed (c :: front) back (List.cons_ne_nil _ _) rfl

/-- A text that is not of selector form is a plain field name. -/
theorem parse_of_not_selectorForm {content : Text} (plain : ¬ content.IsSelectorForm) :
    parse content = ⟨content, none⟩ := by
  unfold parse
  split
  · next bracketed =>
    obtain ⟨body, rfl⟩ := List.getLast?_eq_some_iff.mp bracketed.2
    have unsplit : split? body = none := by
      refine split?_eq_none_iff.mpr fun field back nonempty whole => ?_
      cases opened : opening? back with
      | none => rfl
      | some selector =>
        obtain ⟨kind, spec, kinds, more, rfl⟩ :=
          opening?_isSome_iff.mp (Option.isSome_iff_exists.mpr ⟨selector, opened⟩)
        subst whole
        exact absurd ⟨field, kind, spec, nonempty, kinds, more, bracketed.1, rfl⟩ plain
    rw [List.dropLast_concat, unsplit]
  · rfl

/-- A text is read with a selector exactly when it is of selector form. -/
theorem selector_parse_eq_none_iff {content : Text} :
    (parse content).selector = none ↔ ¬ content.IsSelectorForm := by
  constructor
  · rintro unread ⟨field, kind, spec, nonempty, kinds, more, line, rfl⟩
    have bracketed : '\n' ∉ field ++ '[' :: (kind ++ spec) ++ [']'] ∧
        (field ++ '[' :: (kind ++ spec) ++ [']']).getLast? = some ']' :=
      ⟨line, List.getLast?_concat⟩
    rw [parse, if_pos bracketed, List.dropLast_concat] at unread
    cases found : split? (field ++ '[' :: (kind ++ spec)) with
    | some pair => simp [found] at unread
    | none =>
      have closed := split?_eq_none_iff.mp found field _ nonempty rfl
      have opened := opening?_isSome_iff.mpr ⟨kind, spec, kinds, more, rfl⟩
      rw [closed] at opened
      contradiction
  · intro plain
    rw [parse_of_not_selectorForm plain]

instance (content : Text) : Decidable content.IsSelectorForm :=
  decidable_of_iff (¬ (parse content).selector = none)
    (by rw [selector_parse_eq_none_iff, Classical.not_not])

end Expression

end FormFill
