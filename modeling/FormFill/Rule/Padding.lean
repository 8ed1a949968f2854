import FormFill.Rule.Repetition

/-! # Padding rules

A padding rule `(filler[length])` appends one filler for each character that a value lacks. A filler
of several characters is appended whole, so the result can be longer than asked for. Fillers that
could not be held in memory by themselves are left out; whether those that are not left out can be
held together with the value is found out only when room is set aside for the padded value. Padding
fails when there is no such room, and so does everything that pads.
-/

namespace FormFill

/-- A filler and the number of characters that a value should have. -/
structure Padding where
  filler : Text
  length : Nat
deriving DecidableEq

namespace Padding

/-- Read `(filler[length])`; no other text is a padding rule. -/
def parse? : Text → Option Padding
  | '(' :: rest =>
    if rest.getLast? = some ')' then
      (Repetition.parse? rest.dropLast).map fun repetition => ⟨repetition.unit, repetition.count⟩
    else none
  | _ => none

/-- How many fillers a value lacks, or none when they could not be held in memory. -/
def missing (padding : Padding) (value : Text) : Nat :=
  Text.boundedCount padding.filler.byteSize (padding.length - value.length)

/-- How many bytes are set aside for the padded value; sums stop at the greatest machine count. -/
def reserved (padding : Padding) (value : Text) : Nat :=
  min (value.byteSize + padding.filler.byteSize * padding.missing value) (Text.countLimit - 1)

/-- What is written once room is set aside: the value and behind it the fillers that it lacks. -/
def filled (padding : Padding) (value : Text) : Text :=
  value ++ padding.filler.copies (padding.missing value)

/-- Pad a value, or fail when no text has as many bytes as are set aside for the result. -/
def padded? (padding : Padding) (value : Text) : Option Text :=
  if padding.reserved value ≤ Text.maxBytes then some (padding.filled value) else none

/-- Pad a value by the rule that a text denotes; a text that is no padding rule changes nothing. -/
def paddedBy? (rule value : Text) : Option Text :=
  match parse? rule with
  | some padding => padding.padded? value
  | none => some value

theorem parse?_parenthesised (content : Text) :
    parse? ('(' :: content ++ [')']) =
      (Repetition.parse? content).map fun repetition => ⟨repetition.unit, repetition.count⟩ := by
  have closed : (content ++ [')']).getLast? = some ')' := List.getLast?_concat
  rw [List.cons_append, parse?, if_pos closed, List.dropLast_concat]

/-- Only a repetition in parentheses is read. -/
theorem exists_of_parse?_eq_some {rule : Text} {padding : Padding}
    (parsed : parse? rule = some padding) :
    ∃ content, rule = '(' :: content ++ [')'] ∧
      Repetition.parse? content = some ⟨padding.filler, padding.length⟩ := by
  unfold parse? at parsed
  split at parsed
  · split at parsed
    · next closed =>
      obtain ⟨content, rfl⟩ := List.getLast?_eq_some_iff.mp closed
      rw [List.dropLast_concat] at parsed
      obtain ⟨repetition, read, rfl⟩ := Option.map_eq_some_iff.mp parsed
      exact ⟨content, rfl, read⟩
    · contradiction
  · contradiction

/-- A rule that was read has a filler. -/
theorem filler_ne_nil {rule : Text} {padding : Padding} (parsed : parse? rule = some padding) :
    padding.filler ≠ [] := by
  obtain ⟨content, -, read⟩ := exists_of_parse?_eq_some parsed
  obtain ⟨-, -, nonempty, -⟩ := Repetition.eq_of_parse?_eq_some read
  exact nonempty

section Fillers

variable {padding : Padding} {value : Text}

theorem missing_of_fits
    (fits : padding.filler.byteSize * (padding.length - value.length) ≤ Text.maxBytes) :
    padding.missing value = padding.length - value.length := if_pos fits

theorem missing_of_not_fits
    (large : ¬ padding.filler.byteSize * (padding.length - value.length) ≤ Text.maxBytes) :
    padding.missing value = 0 := if_neg large

/-- A value that is long enough is left as it is. -/
theorem filled_of_le (long : padding.length ≤ value.length) : padding.filled value = value := by
  have nothing : padding.missing value = 0 := by
    simp [missing, Text.boundedCount, Nat.sub_eq_zero_of_le long]
  simp [filled, nothing]

/-- Fillers that do not fit are left out. -/
theorem filled_of_not_fits
    (large : ¬ padding.filler.byteSize * (padding.length - value.length) ≤ Text.maxBytes) :
    padding.filled value = value := by
  simp [filled, missing_of_not_fits large]

/-- Every filler has a character at least, so fillers that fit bring a value up to the length. -/
theorem length_le_length_filled (nonempty : padding.filler ≠ [])
    (fits : padding.filler.byteSize * (padding.length - value.length) ≤ Text.maxBytes) :
    padding.length ≤ (padding.filled value).length := by
  have width : 0 < padding.filler.length := List.length_pos_iff.mpr nonempty
  have grown := Nat.le_mul_of_pos_right (padding.length - value.length) width
  rw [filled, List.length_append, Text.length_copies, missing_of_fits fits]
  omega

/-- A filled value is long enough, or could not be filled up at all: it stays as it is. -/
theorem filled_filled (nonempty : padding.filler ≠ []) :
    padding.filled (padding.filled value) = padding.filled value := by
  by_cases fits : padding.filler.byteSize * (padding.length - value.length) ≤ Text.maxBytes
  · exact filled_of_le (length_le_length_filled nonempty fits)
  · rw [filled_of_not_fits fits, filled_of_not_fits fits]

theorem byteSize_filled (padding : Padding) (value : Text) :
    (padding.filled value).byteSize =
      value.byteSize + padding.filler.byteSize * padding.missing value := by
  rw [filled, Text.byteSize_append, Text.byteSize_copies, Nat.mul_comm]

/-- The bytes of the fillers that are appended: all that are lacking, if these fit by themselves. -/
theorem filler_mul_missing (padding : Padding) (value : Text) :
    let fillers := padding.filler.byteSize * (padding.length - value.length)
    padding.filler.byteSize * padding.missing value =
      if fillers ≤ Text.maxBytes then fillers else 0 := by
  intro fillers
  split
  · next fits => rw [missing_of_fits fits]
  · next large => rw [missing_of_not_fits large, Nat.mul_zero]

/-- For a value that memory holds, exactly the bytes of the padded value are set aside. -/
theorem reserved_eq_byteSize (held : value.byteSize ≤ Text.maxBytes) (padding : Padding) :
    padding.reserved value = (padding.filled value).byteSize := by
  rw [reserved, byteSize_filled, filler_mul_missing]
  unfold Text.maxBytes at *
  unfold Text.countLimit
  split <;> omega

/-- Stopping at the greatest count does not make room: padding succeeds exactly when memory can hold
the filled value. -/
theorem padded?_eq (padding : Padding) (value : Text) :
    padding.padded? value =
      if (padding.filled value).byteSize ≤ Text.maxBytes then some (padding.filled value)
      else none := by
  have room : padding.reserved value ≤ Text.maxBytes ↔
      (padding.filled value).byteSize ≤ Text.maxBytes := by
    rw [reserved, ← byteSize_filled]
    unfold Text.maxBytes Text.countLimit
    omega
  simp only [padded?, room]

theorem padded?_eq_some_iff {text : Text} :
    padding.padded? value = some text ↔
      padding.filled value = text ∧ text.byteSize ≤ Text.maxBytes := by
  rw [padded?_eq, Option.ite_none_right_eq_some]
  constructor
  · rintro ⟨fits, same⟩
    cases same
    exact ⟨rfl, fits⟩
  · rintro ⟨rfl, fits⟩
    exact ⟨fits, rfl⟩

end Fillers

/-- What padding gives is not padded again. -/
theorem paddedBy?_paddedBy? {rule value text : Text} (padded : paddedBy? rule value = some text) :
    paddedBy? rule text = some text := by
  unfold paddedBy? at padded ⊢
  cases parsed : parse? rule with
  | none => rfl
  | some padding =>
    rw [parsed] at padded
    obtain ⟨rfl, fits⟩ := padded?_eq_some_iff.mp padded
    exact padded?_eq_some_iff.mpr ⟨filled_filled (filler_ne_nil parsed), fits⟩

end Padding

end FormFill
