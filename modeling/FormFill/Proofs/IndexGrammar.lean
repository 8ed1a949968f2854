import FormFill.Rule.Index
import Mathlib.Algebra.Group.Int.Defs
import Mathlib.Data.List.TakeWhile

/-! # The grammar of indices

A text that opens with white space, at most one sign and a digit denotes the integer of its whole
digit run, whatever stands behind it. Exactly these texts are read as an index, and the index is the
integer of the signed 64-bit range that is nearest to the denoted one. However long the run is, no
other integer is read: checked steps and exact arithmetic part only where the range ends.
-/

namespace FormFill

namespace Index

/-- What may stand before the digits, and the sign of the integer. -/
inductive SignText : Text → Int → Prop
  | none : SignText [] 1
  | plus : SignText ['+'] 1
  | minus : SignText ['-'] (-1)

/-- White space, at most one sign, and a digit that anything may follow. -/
inductive Opens : Text → Prop
  | index {blanks mark more : Text} {sign : Int} {digit : Char}
      (blank : ∀ c ∈ blanks, Text.isBlank c = true) (signed : SignText mark sign)
      (isDigit : Text.isDigit digit = true) : Opens (blanks ++ (mark ++ digit :: more))

/-- The integer that a text denotes as an index. Its run ends where no further digit stands. -/
inductive Denotes : Text → Int → Prop
  | index {blanks mark run rest : Text} {sign : Int}
      (blank : ∀ c ∈ blanks, Text.isBlank c = true) (signed : SignText mark sign)
      (nonempty : run ≠ []) (digits : ∀ c ∈ run, Text.isDigit c = true)
      (stop : ∀ c ∈ rest.head?, Text.isDigit c = false) :
      Denotes (blanks ++ (mark ++ (run ++ rest))) (sign * Text.decimalValue run)

variable {text mark rest blanks : Text} {sign exact i : Int}

theorem SignText.isDigit_eq_false (signed : SignText mark sign) :
    ∀ c ∈ mark, Text.isDigit c = false := by
  cases signed with
  | none => exact List.forall_mem_nil _
  | plus | minus => exact List.forall_mem_singleton.mpr (by decide)

theorem SignText.sign_eq (signed : SignText mark sign) : sign = if '-' ∈ mark then -1 else 1 := by
  cases signed <;> decide

/-- Digits behind a sign are denoted as far as they go. -/
theorem denotes_spanDigits (blank : ∀ c ∈ blanks, Text.isBlank c = true)
    (signed : SignText mark sign) (nonempty : (Text.spanDigits rest).1 ≠ []) :
    Denotes (blanks ++ (mark ++ rest)) (sign * Text.decimalValue (Text.spanDigits rest).1) := by
  have stop : ∀ c ∈ (Text.spanDigits rest).2.head?, Text.isDigit c = false :=
    Text.dropWhile_stop Text.isDigit rest
  have denoted := Denotes.index blank signed nonempty (fun c => List.mem_takeWhile_imp) stop
  rwa [Text.spanDigits_append] at denoted

/-- A text that opens as an index denotes an integer, and no other text does. -/
theorem opens_iff_exists_denotes : Opens text ↔ ∃ exact, Denotes text exact := by
  constructor
  · rintro ⟨blank, signed, isDigit⟩
    exact ⟨_, denotes_spanDigits blank signed (by simp [Text.spanDigits, isDigit])⟩
  · rintro ⟨-, ⟨blank, signed, nonempty, digits, -⟩⟩
    obtain ⟨digit, more, rfl⟩ := List.exists_cons_of_ne_nil nonempty
    exact .index blank signed (digits digit List.mem_cons_self)

/-- The denoted integer stands in the first digit run of the text, and is negative if a dash stands
before it. -/
theorem Denotes.eq (denoted : Denotes text exact) :
    exact = (if '-' ∈ text.takeWhile (!Text.isDigit ·) then -1 else 1) *
      Text.decimalValue (Text.spanDigits (text.dropWhile (!Text.isDigit ·))).1 := by
  obtain @⟨blanks, mark, run, rest, sign, blank, signed, nonempty, digits, stop⟩ := denoted
  have front : ∀ c ∈ blanks ++ mark, (!Text.isDigit c) = true := by
    intro c member
    rcases List.mem_append.mp member with inside | inside
    · cases digit : Text.isDigit c with
      | false => rfl
      | true => exact absurd (blank c inside) (by simp [Text.isBlank_of_isDigit digit])
    · simp [signed.isDigit_eq_false c inside]
  have dash : '-' ∈ blanks ++ mark ↔ '-' ∈ mark := by
    have solid : '-' ∉ blanks := fun inside => absurd (blank _ inside) (by decide)
    simp [solid]
  have opens : ∀ c ∈ (run ++ rest).head?, (!Text.isDigit c) = false := by
    obtain ⟨digit, more, rfl⟩ := List.exists_cons_of_ne_nil nonempty
    rintro c ⟨⟩
    simp [digits digit List.mem_cons_self]
  rw [← List.append_assoc, Text.takeWhile_run front opens, Text.dropWhile_run front opens,
    Text.spanDigits_run digits stop, signed.sign_eq]
  simp only [dash]

theorem Denotes.unique {other : Int} (denoted : Denotes text exact)
    (otherDenoted : Denotes text other) : exact = other :=
  denoted.eq.trans otherDenoted.eq.symm

theorem parse_blank_append (blank : ∀ c ∈ blanks, Text.isBlank c = true) (rest : Text) :
    parse (blanks ++ rest) = parse rest := by
  unfold parse
  rw [List.dropWhile_append_of_pos blank]

/-- A denoted integer is read, as far as the range goes. -/
theorem Denotes.parse_eq (denoted : Denotes text exact) : parse text = some (clamp exact) := by
  obtain @⟨blanks, mark, run, rest, sign, blank, signed, nonempty, digits, stop⟩ := denoted
  rw [parse_blank_append blank, ← ofDigits_run sign nonempty digits stop]
  cases signed with
  | none =>
    obtain ⟨digit, more, rfl⟩ := List.exists_cons_of_ne_nil nonempty
    exact parse_of_digit (digits digit List.mem_cons_self) _
  | plus => rfl
  | minus => rfl

/-- Only denoted integers are read. -/
theorem exists_denotes_of_parse_eq_some (read : parse text = some i) :
    ∃ exact, Denotes text exact := by
  have blank : ∀ c ∈ text.takeWhile Text.isBlank, Text.isBlank c = true :=
    fun c => List.mem_takeWhile_imp
  have whole : text.takeWhile Text.isBlank ++ text.dropWhile Text.isBlank = text :=
    List.takeWhile_append_dropWhile
  rw [← whole]
  unfold parse at read
  split at read
  · next rest front =>
    rw [front]
    exact ⟨_, denotes_spanDigits blank .minus (ofDigits_eq_some_iff.mp read).1⟩
  · next rest front =>
    rw [front]
    exact ⟨_, denotes_spanDigits blank .plus (ofDigits_eq_some_iff.mp read).1⟩
  · exact ⟨_, denotes_spanDigits blank .none (ofDigits_eq_some_iff.mp read).1⟩

/-- Reading gives an index for exactly the texts that open as one. Such a text denotes one integer,
and the index is that integer, held to the signed 64-bit range. Any other text is a missing
index. -/
theorem parse_saturates (text : Text) :
    ((parse text).isSome = true ↔ Opens text) ∧
      (Opens text → ∃! exact, Denotes text exact) ∧
      (∀ exact, Denotes text exact →
        parse text = some (max (-(2 ^ 63)) (min (2 ^ 63 - 1) exact))) ∧
      (¬ Opens text → parse text = none) := by
  have read : (parse text).isSome = true ↔ Opens text := by
    rw [Option.isSome_iff_exists, opens_iff_exists_denotes]
    constructor
    · rintro ⟨i, found⟩
      exact exists_denotes_of_parse_eq_some found
    · rintro ⟨exact, denoted⟩
      exact ⟨_, denoted.parse_eq⟩
  refine ⟨read, ?_, fun exact denoted => denoted.parse_eq, ?_⟩
  · intro opens
    obtain ⟨exact, denoted⟩ := opens_iff_exists_denotes.mp opens
    exact ⟨exact, denoted, fun other otherDenoted => otherDenoted.unique denoted⟩
  · intro closed
    rwa [← read, Bool.not_eq_true, Option.isSome_eq_false_iff, Option.isNone_iff_eq_none] at closed

/-- Leading zeros do not count, the least integer is still exact, and one past the greatest is held
to it. A second sign opens no index. -/
theorem parse_saturates_extreme :
    let low := "\u3000 ".toList ++ (['-'] ++ ("009223372036854775808".toList ++ ['x']))
    let high := [] ++ (['+'] ++ ("9223372036854775808".toList ++ "-1".toList))
    let other := "+-5".toList
    (Opens low ∧ Denotes low (-(2 ^ 63)) ∧ parse low = some (-(2 ^ 63))) ∧
      (Opens high ∧ Denotes high (2 ^ 63) ∧ parse high = some (2 ^ 63 - 1)) ∧
      ¬ Opens other ∧ parse other = none := by
  intro low high other
  have lowDenoted : Denotes low (-(2 ^ 63)) := by
    have value : -1 * (Text.decimalValue "009223372036854775808".toList : Int) = -(2 ^ 63) := by
      decide
    rw [← value]
    exact .index (List.all_eq_true.mp (by decide)) .minus (by decide)
      (List.all_eq_true.mp (by decide)) (by rintro c ⟨⟩; rfl)
  have highDenoted : Denotes high (2 ^ 63) := by
    have value : 1 * (Text.decimalValue "9223372036854775808".toList : Int) = 2 ^ 63 := by decide
    rw [← value]
    exact .index (List.forall_mem_nil _) .plus (by decide) (List.all_eq_true.mp (by decide))
      (by rintro c ⟨⟩; rfl)
  obtain ⟨-, -, readLow, -⟩ := parse_saturates low
  obtain ⟨-, -, readHigh, -⟩ := parse_saturates high
  obtain ⟨readOther, -, -, missing⟩ := parse_saturates other
  have closed : ¬ Opens other := by
    rw [← readOther]
    decide
  exact ⟨⟨opens_iff_exists_denotes.mpr ⟨_, lowDenoted⟩, lowDenoted, readLow _ lowDenoted⟩,
    ⟨opens_iff_exists_denotes.mpr ⟨_, highDenoted⟩, highDenoted, readHigh _ highDenoted⟩,
    closed, missing closed⟩

end Index

end FormFill
