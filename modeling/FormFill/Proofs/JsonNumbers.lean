import FormFill.Proofs.JsonTexts

/-! # The grammar of number literals

A number literal is a sign, a whole part, a fraction and an exponent, of which only the whole part
must be there. A literal is cut into these parts wherever nothing continues it, and whatever is cut
into parts is such a literal.
-/

namespace FormFill.Json

/-- A digit run that is not empty. -/
def IsRun (run : Text) : Prop := run ≠ [] ∧ ∀ c ∈ run, Text.isDigit c = true

/-- The whole part of a number: no zero stands before another digit. -/
def IsWhole (run : Text) : Prop := IsRun run ∧ (run = ['0'] ∨ run.head? ≠ some '0')

instance : DecidablePred IsRun := fun run =>
  have := List.decidableBAll (fun c => Text.isDigit c = true) run
  instDecidableAnd

instance : DecidablePred IsWhole :=
  fun run => inferInstanceAs (Decidable (IsRun run ∧ (run = ['0'] ∨ run.head? ≠ some '0')))

/-- The texts of fractions. -/
inductive FractionText : Text → Option Text → Prop
  | none : FractionText [] none
  | some {run : Text} (digits : IsRun run) : FractionText ('.' :: run) (some run)

/-- The letters that introduce an exponent. -/
def IsExponentLetter (c : Char) : Prop := c = 'e' ∨ c = 'E'

/-- The texts of exponents. -/
inductive ExponentText : Text → Option ExponentPart → Prop
  | none : ExponentText [] none
  | unsigned {c : Char} {run : Text} (letter : IsExponentLetter c) (digits : IsRun run) :
      ExponentText (c :: run) (some ⟨false, run⟩)
  | positive {c : Char} {run : Text} (letter : IsExponentLetter c) (digits : IsRun run) :
      ExponentText (c :: '+' :: run) (some ⟨false, run⟩)
  | negative {c : Char} {run : Text} (letter : IsExponentLetter c) (digits : IsRun run) :
      ExponentText (c :: '-' :: run) (some ⟨true, run⟩)

/-- The texts of numbers, with their parts. -/
inductive NumberText : Text → NumberLiteral → Prop
  | positive {whole fraction exponent : Text} {run : Option Text} {part : Option ExponentPart}
      (isWhole : IsWhole whole) (isFraction : FractionText fraction run)
      (isExponent : ExponentText exponent part) :
      NumberText (whole ++ (fraction ++ exponent)) ⟨false, whole, run, part⟩
  | negative {whole fraction exponent : Text} {run : Option Text} {part : Option ExponentPart}
      (isWhole : IsWhole whole) (isFraction : FractionText fraction run)
      (isExponent : ExponentText exponent part) :
      NumberText ('-' :: (whole ++ (fraction ++ exponent))) ⟨true, whole, run, part⟩

/-- What stands behind a number does not continue it. -/
def EndsNumber (rest : Text) : Prop :=
  ∀ c ∈ rest.head?, Text.isDigit c = false ∧ c ≠ '.' ∧ ¬ IsExponentLetter c

theorem EndsValue.endsNumber {rest : Text} (ends : EndsValue rest) : EndsNumber rest := by
  intro c first
  rcases ends c first with space | rfl | rfl | rfl
  · simp only [isSpace, Bool.or_eq_true, beq_iff_eq] at space
    rcases space with ((rfl | rfl) | rfl) | rfl <;> simp [IsExponentLetter] <;> decide
  all_goals simp [IsExponentLetter]; decide

variable {atEnd : ReadError} {run rest text : Text}

theorem IsRun.ne_sign {c : Char} (digits : IsRun (c :: run)) : c ≠ '+' ∧ c ≠ '-' := by
  have digit : Text.isDigit c = true := digits.2 c List.mem_cons_self
  constructor <;> rintro rfl <;> contradiction

theorem digitRun_append (digits : IsRun run) (stop : ∀ c ∈ rest.head?, Text.isDigit c = false) :
    digitRun atEnd (run ++ rest) = .ok (run, rest) := by
  have taken : Text.spanDigits (run ++ rest) = (run, rest) := Text.spanDigits_run digits.2 stop
  obtain ⟨c, more, rfl⟩ := List.exists_cons_of_ne_nil digits.1
  simp only [digitRun, taken]

theorem wholePart_append (whole : IsWhole run) (stop : ∀ c ∈ rest.head?, Text.isDigit c = false) :
    wholePart atEnd (run ++ rest) = .ok (run, rest) := by
  have taken : digitRun atEnd (run ++ rest) = .ok (run, rest) := digitRun_append whole.1 stop
  simp only [wholePart, taken, bind, Except.bind]
  split
  · rcases whole.2 with alone | other
    · exact absurd alone (by simp)
    · exact absurd rfl other
  · rfl

theorem fractionPart_append {fraction : Text} {value : Option Text}
    (isFraction : FractionText fraction value)
    (stop : ∀ c ∈ rest.head?, Text.isDigit c = false ∧ c ≠ '.') :
    fractionPart atEnd (fraction ++ rest) = .ok (value, rest) := by
  cases isFraction with
  | none =>
    cases rest with
    | nil => rfl
    | cons c rest =>
      have other : c ≠ '.' := (stop c rfl).2
      simp [fractionPart, other]
      rfl
  | @some run digits =>
    have taken : digitRun atEnd (run ++ rest) = .ok (run, rest) :=
      digitRun_append digits fun c first => (stop c first).1
    simp [fractionPart, taken, bind, Except.bind, pure, Except.pure]

theorem exponentDigits_append (digits : IsRun run) (ends : EndsNumber rest) (negative : Bool) :
    exponentDigits atEnd negative (run ++ rest) = .ok (some ⟨negative, run⟩, rest) := by
  have taken : digitRun atEnd (run ++ rest) = .ok (run, rest) :=
    digitRun_append digits fun c first => (ends c first).1
  simp [exponentDigits, taken, bind, Except.bind, pure, Except.pure]

theorem exponentPart_append {exponent : Text} {part : Option ExponentPart}
    (isExponent : ExponentText exponent part) (ends : EndsNumber rest) :
    exponentPart atEnd (exponent ++ rest) = .ok (part, rest) := by
  cases isExponent with
  | none =>
    cases rest with
    | nil => rfl
    | cons c rest =>
      have other : ¬ (c = 'e' ∨ c = 'E') := (ends c rfl).2.2
      simp [exponentPart, other]
  | @unsigned c run letter digits =>
    have letter : c = 'e' ∨ c = 'E' := letter
    have taken : exponentDigits atEnd false (run ++ rest) = .ok (some ⟨false, run⟩, rest) :=
      exponentDigits_append digits ends false
    obtain ⟨digit, more, rfl⟩ := List.exists_cons_of_ne_nil digits.1
    have unsigned : digit ≠ '+' ∧ digit ≠ '-' := digits.ne_sign
    simpa [exponentPart, letter, unsigned] using taken
  | @positive c run letter digits =>
    have letter : c = 'e' ∨ c = 'E' := letter
    simp [exponentPart, letter, exponentDigits_append digits ends]
  | @negative c run letter digits =>
    have letter : c = 'e' ∨ c = 'E' := letter
    simp [exponentPart, letter, exponentDigits_append digits ends]

theorem ExponentText.stops {exponent : Text} {part : Option ExponentPart}
    (isExponent : ExponentText exponent part) (ends : EndsNumber rest) :
    ∀ c ∈ (exponent ++ rest).head?, Text.isDigit c = false ∧ c ≠ '.' := by
  have letters : ∀ c, IsExponentLetter c → Text.isDigit c = false ∧ c ≠ '.' := by
    rintro c (rfl | rfl) <;> decide
  cases isExponent with
  | none => exact fun c first => ⟨(ends c first).1, (ends c first).2.1⟩
  | unsigned letter digits | positive letter digits | negative letter digits =>
    rintro c ⟨⟩
    exact letters _ letter

theorem FractionText.stops {fraction : Text} {value : Option Text}
    (isFraction : FractionText fraction value)
    (stop : ∀ c ∈ rest.head?, Text.isDigit c = false ∧ c ≠ '.') :
    ∀ c ∈ (fraction ++ rest).head?, Text.isDigit c = false := by
  cases isFraction with
  | none => exact fun c first => (stop c first).1
  | some digits =>
    rintro c ⟨⟩
    decide

/-- A number is cut into its parts wherever nothing continues it. -/
theorem NumberText.numberLiteral_eq {parts : NumberLiteral} (number : NumberText text parts)
    (ends : EndsNumber rest) : numberLiteral atEnd (text ++ rest) = .ok (parts, rest) := by
  cases number with
  | @positive whole fraction exponent run part isWhole isFraction isExponent =>
    have stop := isExponent.stops ends
    have first : wholePart atEnd (whole ++ (fraction ++ (exponent ++ rest))) = _ :=
      wholePart_append isWhole (isFraction.stops stop)
    obtain ⟨digit, more, rfl⟩ := List.exists_cons_of_ne_nil isWhole.1.1
    have unsigned : digit ≠ '-' := isWhole.1.ne_sign.2
    rw [List.cons_append] at first
    simp [numberLiteral, unsigned, first, fractionPart_append isFraction stop,
      exponentPart_append isExponent ends, bind, Except.bind, pure, Except.pure]
  | @negative whole fraction exponent run part isWhole isFraction isExponent =>
    have stop := isExponent.stops ends
    simp [numberLiteral, wholePart_append isWhole (isFraction.stops stop),
      fractionPart_append isFraction stop, exponentPart_append isExponent ends, bind, Except.bind,
      pure, Except.pure]

theorem isRun_of_digitRun (read : digitRun atEnd text = .ok (run, rest)) :
    text = run ++ rest ∧ IsRun run := by
  have whole := Text.spanDigits_append text
  have digits : (Text.spanDigits text).1.all Text.isDigit := List.all_takeWhile
  unfold digitRun at read
  split at read
  · contradiction
  · contradiction
  · next other spanned nonempty span =>
    cases read
    rw [span] at whole digits
    refine ⟨whole.symm, ?_, List.all_eq_true.mp digits⟩
    rintro rfl
    cases rest with
    | nil => exact spanned rfl rfl
    | cons c rest => exact nonempty c rest rfl rfl

theorem isWhole_of_wholePart (read : wholePart atEnd text = .ok (run, rest)) :
    text = run ++ rest ∧ IsWhole run := by
  obtain ⟨⟨taken, left⟩, here, later⟩ := exists_of_bind_eq_ok read
  obtain ⟨rfl, digits⟩ := isRun_of_digitRun here
  dsimp only at later
  split at later
  · contradiction
  · next single =>
    cases later
    refine ⟨rfl, digits, ?_⟩
    match run, digits.1 with
    | [c], _ => by_cases zero : c = '0' <;> simp [zero]
    | c :: next :: more, _ =>
      have notZero : c ≠ '0' := fun zero => single next more (by rw [zero])
      simp [notZero]

theorem exists_of_fractionPart {value : Option Text}
    (read : fractionPart atEnd text = .ok (value, rest)) :
    ∃ fraction, text = fraction ++ rest ∧ FractionText fraction value := by
  unfold fractionPart at read
  split at read
  · obtain ⟨⟨run, left⟩, here, later⟩ := exists_of_bind_eq_ok read
    obtain ⟨rfl, digits⟩ := isRun_of_digitRun here
    cases later
    exact ⟨_, rfl, .some digits⟩
  · cases read
    exact ⟨[], rfl, .none⟩

theorem exists_of_exponentDigits {negative : Bool} {part : Option ExponentPart}
    (read : exponentDigits atEnd negative text = .ok (part, rest)) :
    ∃ run, text = run ++ rest ∧ part = some ⟨negative, run⟩ ∧ IsRun run := by
  obtain ⟨⟨run, left⟩, here, later⟩ := exists_of_bind_eq_ok read
  obtain ⟨rfl, digits⟩ := isRun_of_digitRun here
  cases later
  exact ⟨run, rfl, rfl, digits⟩

theorem exists_of_exponentPart {part : Option ExponentPart}
    (read : exponentPart atEnd text = .ok (part, rest)) :
    ∃ exponent, text = exponent ++ rest ∧ ExponentText exponent part := by
  unfold exponentPart at read
  split at read
  · split at read
    · next letter =>
      split at read
      all_goals
        obtain ⟨run, rfl, rfl, digits⟩ := exists_of_exponentDigits read
      · exact ⟨_, rfl, .positive letter digits⟩
      · exact ⟨_, rfl, .negative letter digits⟩
      · exact ⟨_, rfl, .unsigned letter digits⟩
    · cases read
      exact ⟨[], rfl, .none⟩
  · cases read
    exact ⟨[], rfl, .none⟩

theorem exists_of_unsigned {negative : Bool} {parts : NumberLiteral}
    (read : (do
      let (whole, text) ← wholePart atEnd text
      let (fraction, text) ← fractionPart atEnd text
      let (exponent, text) ← exponentPart atEnd text
      return (⟨negative, whole, fraction, exponent⟩, text)) = Except.ok (parts, rest)) :
    ∃ whole fraction exponent run part, text = whole ++ (fraction ++ exponent) ++ rest ∧
      parts = ⟨negative, whole, run, part⟩ ∧ IsWhole whole ∧ FractionText fraction run ∧
      ExponentText exponent part := by
  obtain ⟨⟨whole, afterWhole⟩, readWhole, read⟩ := exists_of_bind_eq_ok read
  obtain ⟨⟨run, afterFraction⟩, readFraction, read⟩ := exists_of_bind_eq_ok read
  obtain ⟨⟨part, afterExponent⟩, readExponent, read⟩ := exists_of_bind_eq_ok read
  cases read
  obtain ⟨rfl, isWhole⟩ := isWhole_of_wholePart readWhole
  obtain ⟨fraction, rfl, isFraction⟩ := exists_of_fractionPart readFraction
  obtain ⟨exponent, rfl, isExponent⟩ := exists_of_exponentPart readExponent
  exact ⟨whole, fraction, exponent, run, part, by simp, rfl, isWhole, isFraction, isExponent⟩

/-- What is cut into the parts of a number is a number text, and nothing more. -/
theorem exists_of_numberLiteral {parts : NumberLiteral}
    (read : numberLiteral atEnd text = .ok (parts, rest)) :
    ∃ number, text = number ++ rest ∧ NumberText number parts := by
  unfold numberLiteral at read
  dsimp only at read
  split at read
  all_goals
    dsimp only at read
    obtain ⟨whole, fraction, exponent, run, part, rfl, rfl, isWhole, isFraction, isExponent⟩ :=
      exists_of_unsigned read
  · exact ⟨_, rfl, .negative isWhole isFraction isExponent⟩
  · exact ⟨_, rfl, .positive isWhole isFraction isExponent⟩

end FormFill.Json
