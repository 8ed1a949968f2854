import FormFill.Proofs.Duplication
import FormFill.Rule.Padding

/-! # What padding rules do

A padding rule is a filler on one line with a digit run in brackets behind it, all in parentheses.
It appends whole fillers only, one for each character that a value lacks, so that padding a second
time does nothing; and what it appends is what the duplication of the filler gives. Fillers are left
out when they could not be held in memory by themselves. That leaves padded values which no memory
can hold: those whose fillers fit alone, but not together with the value.
-/

namespace FormFill

namespace Padding

/-- The text of a padding rule and what it denotes. The digit run gives the length; a run whose
value no count holds gives zero. -/
inductive Denotes : Text → Padding → Prop
  | rule {filler run : Text} (nonempty : filler ≠ []) (line : '\n' ∉ filler) (counted : run ≠ [])
      (digits : ∀ c ∈ run, Text.isDigit c = true) :
      Denotes ('(' :: (filler ++ '[' :: run ++ [']']) ++ [')'])
        ⟨filler, if Text.decimalValue run < 2 ^ 64 then Text.decimalValue run else 0⟩

/-- Reading accepts exactly the texts of padding rules, with what they denote. -/
theorem parse?_eq_some_iff {rule : Text} {padding : Padding} :
    parse? rule = some padding ↔ Denotes rule padding := by
  constructor
  · intro read
    obtain ⟨content, rfl, inner⟩ := exists_of_parse?_eq_some read
    obtain ⟨run, rfl, nonempty, line, counted, digits, count⟩ :=
      Repetition.eq_of_parse?_eq_some inner
    obtain ⟨filler, length⟩ := padding
    cases count
    exact .rule nonempty line counted digits
  · rintro ⟨nonempty, line, counted, digits⟩
    rw [parse?_parenthesised, Repetition.parse?_bracketed nonempty line counted digits]
    rfl

theorem parse?_eq_none_iff {rule : Text} :
    parse? rule = none ↔ ∀ padding, ¬ Denotes rule padding := by
  simp only [Option.eq_none_iff_forall_ne_some, ne_eq, parse?_eq_some_iff]

theorem Denotes.rule_ne_nil {rule : Text} {padding : Padding} (denoted : Denotes rule padding) :
    rule ≠ [] := by
  cases denoted
  exact List.cons_ne_nil _ _

theorem Denotes.length_lt {rule : Text} {padding : Padding} (denoted : Denotes rule padding) :
    padding.length < Text.countLimit := by
  cases denoted with
  | @rule filler run => exact Text.countOf_lt run

/-- The bytes of a padded value: those of the value, and those of the fillers that it lacks when
these could be held in memory by themselves. -/
def paddedSize (padding : Padding) (value : Text) : Nat :=
  let fillers := padding.filler.byteSize * (padding.length - value.length)
  value.byteSize + if fillers ≤ 2 ^ 63 - 1 then fillers else 0

theorem byteSize_filled_eq_paddedSize (padding : Padding) (value : Text) :
    (padding.filled value).byteSize = padding.paddedSize value := by
  rw [byteSize_filled, filler_mul_missing]
  rfl

/-- Padding fails exactly when no text has as many bytes as the padded value. -/
theorem padded?_eq_none_iff_lt_paddedSize {padding : Padding} {value : Text} :
    padding.padded? value = none ↔ 2 ^ 63 - 1 < padding.paddedSize value := by
  rw [padded?_eq, byteSize_filled_eq_paddedSize, ite_eq_right_iff]
  simp only [reduceCtorEq, imp_false, Nat.not_le]
  rfl

theorem filled_eq_append_flatten (padding : Padding) (value : Text) :
    let lacking := padding.length - value.length
    let count := if lacking * padding.filler.byteSize ≤ 2 ^ 63 - 1 then lacking else 0
    padding.filled value = value ++ (List.replicate count padding.filler).flatten := by
  intro lacking count
  have missed : padding.missing value = count := by
    rw [missing, Text.boundedCount, Nat.mul_comm]
    rfl
  rw [filled, missed, Text.copies_eq_flatten]

/-- The fillers that are lacking are all appended when they fit. -/
theorem filled_of_fits {padding : Padding} {value : Text}
    (fits : padding.filler.byteSize * (padding.length - value.length) ≤ 2 ^ 63 - 1) :
    padding.filled value =
      value ++ (List.replicate (padding.length - value.length) padding.filler).flatten := by
  rw [filled, missing_of_fits fits, Text.copies_eq_flatten]

/-- Padding by a rule appends whole fillers: as many as the value lacks characters, or none when
these would be too large for memory. It fails when the value and the fillers would be too large
together. Any other text is no rule and leaves the value as it is. Either way, padding a second time
changes nothing. -/
theorem paddedBy?_appends (rule value : Text) :
    (paddedBy? rule value >>= paddedBy? rule) = paddedBy? rule value ∧
      (∀ padding, parse? rule = some padding ↔ Denotes rule padding) ∧
      (∀ filler length, Denotes rule ⟨filler, length⟩ →
        let lacking := length - value.length
        let count := if lacking * filler.byteSize ≤ 2 ^ 63 - 1 then lacking else 0
        let padded := value ++ (List.replicate count filler).flatten
        paddedBy? rule value = if padded.byteSize ≤ 2 ^ 63 - 1 then some padded else none) ∧
      ((∀ padding, ¬ Denotes rule padding) → paddedBy? rule value = some value) := by
  refine ⟨?_, fun padding => parse?_eq_some_iff, ?_, ?_⟩
  · cases padded : paddedBy? rule value with
    | none => rfl
    | some text => exact paddedBy?_paddedBy? padded
  · intro filler length denoted lacking count padded
    have filled : filled ⟨filler, length⟩ value = padded :=
      filled_eq_append_flatten ⟨filler, length⟩ value
    rw [paddedBy?, parse?_eq_some_iff.mpr denoted, ← filled]
    exact padded?_eq ⟨filler, length⟩ value
  · intro other
    rw [paddedBy?, parse?_eq_none_iff.mpr other]

/-- The brackets of the length are the last ones, and a filler may hold parentheses. -/
example : paddedBy? "(a)[2][0005])".toList "é(".toList = some "é(a)[2]a)[2]a)[2]".toList := by
  decide

/-- Not every value is padded, although the fillers that it lacks have a size that memory can hold:
a filler of one byte is asked for as often as possible, and the value has a byte too. -/
theorem paddedBy?_one_over :
    let rule : Text := "(b[9223372036854775808])".toList
    let value : Text := "a".toList
    let lacking := 2 ^ 63 - value.length
    Denotes rule ⟨"b".toList, 2 ^ 63⟩ ∧ lacking * Text.byteSize "b".toList ≤ 2 ^ 63 - 1 ∧
      paddedBy? rule value ≠ some (value ++ (List.replicate lacking "b".toList).flatten) ∧
      paddedBy? rule value ≠ some value := by
  intro rule value lacking
  have denoted : Denotes rule ⟨"b".toList, 2 ^ 63⟩ := parse?_eq_some_iff.mp (by decide)
  have failed : paddedBy? rule value = none := by decide
  rw [failed]
  exact ⟨denoted, by decide, (Option.some_ne_none _).symm, (Option.some_ne_none _).symm⟩

/-- For a value that memory holds, exactly the bytes of the padded value are set aside. No room is
found when the fillers fit by themselves but not together with the value, and only then; what is
given otherwise is the padded value, and memory holds it. -/
theorem padded?_eq_none_iff (padding : Padding) {value : Text}
    (held : value.byteSize ≤ 2 ^ 63 - 1) :
    let fillers := padding.filler.byteSize * (padding.length - value.length)
    padding.reserved value = (padding.filled value).byteSize ∧
      (padding.padded? value = none ↔
        fillers ≤ 2 ^ 63 - 1 ∧ 2 ^ 63 - 1 < value.byteSize + fillers) ∧
      ∀ text ∈ padding.padded? value,
        text = padding.filled value ∧ text.byteSize ≤ 2 ^ 63 - 1 := by
  intro fillers
  refine ⟨reserved_eq_byteSize held padding, ?_, ?_⟩
  · rw [padded?_eq_none_iff_lt_paddedSize, paddedSize]
    by_cases alone : fillers ≤ 2 ^ 63 - 1
    · rw [if_pos alone]
      exact (and_iff_right alone).symm
    · rw [if_neg alone]
      exact iff_of_false (Nat.not_lt.mpr held) fun both => alone both.1
  · intro text given
    obtain ⟨rfl, fits⟩ := padded?_eq_some_iff.mp given
    exact ⟨rfl, fits⟩

/-- Two-byte fillers for all but one of `2 ^ 62` characters fit; the two bytes of the value do not
fit in front of them. -/
theorem padded?_eq_none_iff_two_bytes :
    let padding : Padding := ⟨"é".toList, 2 ^ 62⟩
    let value : Text := "ü".toList
    value.byteSize ≤ 2 ^ 63 - 1 ∧ padding.reserved value = (padding.filled value).byteSize ∧
      padding.padded? value = none := by
  intro padding value
  have held : value.byteSize ≤ 2 ^ 63 - 1 := by decide
  obtain ⟨whole, refused, -⟩ := padded?_eq_none_iff padding held
  exact ⟨held, whole, refused.mpr (by decide)⟩

/-- Not every padded value has a size that memory can hold, and padding does fail: a filler of one
byte fits as often as the length asks for, and the one byte of the value is too much. -/
theorem reserved_one_over :
    let rule : Text := "(b[9223372036854775808])".toList
    let padding : Padding := ⟨"b".toList, 2 ^ 63⟩
    let value : Text := "a".toList
    parse? rule = some padding ∧ value.byteSize ≤ 2 ^ 63 - 1 ∧ padding.length < 2 ^ 64 ∧
      padding.reserved value = 2 ^ 63 ∧ paddedBy? rule value = none := by
  decide

theorem Denotes.isName_filler {rule : Text} {padding : Padding} (denoted : Denotes rule padding)
    (enclosed : ')' ∉ padding.filler)
    (notDigits : padding.filler ≠ ['r', 'n'] ∧ ¬ ['r', 'n', '['] <+: padding.filler)
    (notLetters : padding.filler ≠ ['r', 'c'] ∧ ¬ ['r', 'c', '['] <+: padding.filler) :
    padding.filler.IsName := by
  cases denoted with
  | rule nonempty line => exact ⟨nonempty, line, enclosed, notDigits, notLetters⟩

/-- Where a filler can be duplicated, padding a value is writing behind it what the duplication of
the filler gives without a field map, for as many copies as the value lacks characters; padding
fails when memory could not hold both. -/
theorem paddedBy?_eq_append_generate {rule : Text} {padding : Padding}
    (read : parse? rule = some padding) (enclosed : ')' ∉ padding.filler)
    (notDigits : padding.filler ≠ ['r', 'n'] ∧ ¬ ['r', 'n', '['] <+: padding.filler)
    (notLetters : padding.filler ≠ ['r', 'c'] ∧ ¬ ['r', 'c', '['] <+: padding.filler)
    (value : Text) (source : Source) :
    let lacking := Text.ofNat (padding.length - value.length)
    let duplication := '(' :: (padding.filler ++ '[' :: lacking ++ [']']) ++ [')']
    let padded := value ++ (generate duplication none source).1
    paddedBy? rule value = if padded.byteSize ≤ 2 ^ 63 - 1 then some padded else none := by
  intro lacking duplication padded
  have denoted : Denotes rule padding := parse?_eq_some_iff.mp read
  have named : padding.filler.IsName := denoted.isName_filler enclosed notDigits notLetters
  have small : padding.length - value.length < Text.countLimit :=
    Nat.lt_of_le_of_lt (Nat.sub_le _ _) denoted.length_lt
  have generated : (generate duplication none source).1 =
      padding.filler.repeated (Text.countOf lacking) := by
    rw [named.generate_bracketed (Text.ofNat_ne_nil _) fun _ => Text.isDigit_of_mem_ofNat]
    rfl
  have filled : padding.filled value = padded := by
    simp only [padded, generated, lacking, Text.countOf_ofNat small]
    rfl
  rw [paddedBy?, read, ← filled]
  exact padded?_eq padding value

/-- Two fillers of three characters for the two that are lacking; the length has a leading zero and
the filler a bracket and an opening parenthesis of its own. -/
theorem paddedBy?_eq_append_generate_bracketed :
    let rule : Text := "(r[([05])".toList
    let filler : Text := "r[(".toList
    let value : Text := "é[9".toList
    let lacking := Text.ofNat (5 - value.length)
    let duplication := '(' :: (filler ++ '[' :: lacking ++ [']']) ++ [')']
    let padded := value ++ (generate duplication none (.seeded 7)).1
    parse? rule = some ⟨filler, 5⟩ ∧ ')' ∉ filler ∧
      (filler ≠ ['r', 'n'] ∧ ¬ ['r', 'n', '['] <+: filler) ∧
      (filler ≠ ['r', 'c'] ∧ ¬ ['r', 'c', '['] <+: filler) ∧
      duplication = "(r[([2])".toList ∧ padded.byteSize ≤ 2 ^ 63 - 1 ∧
      paddedBy? rule value = some padded ∧ padded = "é[9r[(r[(".toList := by
  intro rule filler value lacking duplication padded
  have read : parse? rule = some ⟨filler, 5⟩ := by decide
  have enclosed : ')' ∉ filler := by decide
  have notDigits : filler ≠ ['r', 'n'] ∧ ¬ ['r', 'n', '['] <+: filler := by decide
  have notLetters : filler ≠ ['r', 'c'] ∧ ¬ ['r', 'c', '['] <+: filler := by decide
  have fits : padded.byteSize ≤ 2 ^ 63 - 1 := by decide
  have padding :
      paddedBy? rule value = if padded.byteSize ≤ 2 ^ 63 - 1 then some padded else none :=
    paddedBy?_eq_append_generate read enclosed notDigits notLetters value (.seeded 7)
  exact ⟨read, enclosed, notDigits, notLetters, by decide, fits, padding.trans (if_pos fits),
    by decide⟩

/-- The two bytes of this value and the fillers for all but one of `2 ^ 62` characters are too large
together: padding fails, while duplication gives the fillers. -/
theorem paddedBy?_two_bytes_over :
    let rule : Text := "(é[4611686018427387904])".toList
    let value : Text := "ü".toList
    let duplication : Text := "(é[4611686018427387903])".toList
    parse? rule = some ⟨"é".toList, 2 ^ 62⟩ ∧
      Text.ofNat (2 ^ 62 - value.length) = "4611686018427387903".toList ∧
      paddedBy? rule value ≠ some (value ++ (generate duplication none (.seeded 7)).1) := by
  intro rule value duplication
  have failed : paddedBy? rule value = none := by decide
  rw [failed]
  exact ⟨by decide, by decide, (Option.some_ne_none _).symm⟩

end Padding

end FormFill
