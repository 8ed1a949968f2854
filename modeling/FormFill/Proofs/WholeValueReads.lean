import FormFill.Extraction
import FormFill.Proofs.FieldValueReads
import FormFill.Proofs.WholeTenths

/-! # Whole numbers read

A whole number in plain decimal is read as the integer itself, which is rounded once and shown by
its digits. A whole number that has been written carries a zero fraction, so it is read as a tenth
of its tenfold, and comes back only where that tenth does.
-/

namespace FormFill

namespace Text

/-- Only zero is written with a zero in front. -/
theorem head?_ofNat {n : Nat} (positive : 0 < n) : (ofNat n).head? ≠ some '0' := by
  induction n using Nat.strongRecOn with
  | ind n ih =>
    unfold ofNat at *
    rw [Nat.toDigits_eq_if (by decide)]
    split
    · next small =>
      have digit : ∀ n < 10, 0 < n → [n.digitChar].head? ≠ some '0' := by decide
      exact digit n small positive
    · next large =>
      have front := ih (n / 10) (by omega) (by omega)
      rwa [List.head?_append_of_ne_nil _ Nat.toDigits_ne_nil]

end Text

namespace Json

theorem isWhole_ofNat (n : Nat) : IsWhole (Text.ofNat n) := by
  refine ⟨⟨Text.ofNat_ne_nil n, fun _ => Text.isDigit_of_mem_ofNat⟩, ?_⟩
  obtain rfl | positive := n.eq_zero_or_pos
  · exact .inl rfl
  · exact .inr (Text.head?_ofNat positive)

/-- The digits of an integer, with or without a fraction behind them. -/
theorem numberText_ofInt (i : Int) {fraction : Text} {run : Option Text}
    (isFraction : FractionText fraction run) :
    NumberText (Text.ofInt i ++ fraction) ⟨decide (i < 0), Text.ofNat i.natAbs, run, none⟩ := by
  rw [Text.ofInt_eq]
  by_cases negative : i < 0
  · simpa [negative] using NumberText.negative (isWhole_ofNat i.natAbs) isFraction .none
  · simpa [negative] using NumberText.positive (isWhole_ofNat i.natAbs) isFraction .none

/-- An integer in plain decimal that fits 64 bits is read as it is. -/
theorem value_ofInt {i : Int} (fits : i.natAbs < 2 ^ 63) :
    (⟨decide (i < 0), Text.ofNat i.natAbs, none, none⟩ : NumberLiteral).value =
      .ok (.integer i) := by
  have integer : (⟨decide (i < 0), Text.ofNat i.natAbs, none, none⟩ : NumberLiteral).integer? =
      some i := by
    simp only [NumberLiteral.integer?, Text.decimalValue_ofNat, significandLimit]
    by_cases negative : i < 0
    · have bound : 0 < i.natAbs ∧ i.natAbs ≤ 0x8000000000000000 := by omega
      have same : -(i.natAbs : Int) = i := by omega
      simp only [negative, decide_true, if_true, bound, same, Option.isSome_none,
        Bool.false_eq_true, or_self, if_false, and_self]
    · have bound : i.natAbs < 18446744073709551616 := by omega
      have same : (i.natAbs : Int) = i := by omega
      simp only [negative, decide_false, if_true, bound, same, Option.isSome_none,
        Bool.false_eq_true, or_self, if_false]
  simp only [NumberLiteral.value, integer]

namespace Scaled

theorem le_foldl (run : Text) (value : Nat) :
    value ≤ run.foldl (fun value c => 10 * value + Text.digitValue c) value := by
  induction run generalizing value with
  | nil => exact le_rfl
  | cons c run ih =>
    have further := ih (10 * value + Text.digitValue c)
    rw [List.foldl_cons]
    omega

/-- Whole digits are all taken up as long as the number that they denote fits. -/
theorem addWhole_eq {run : Text} {scaled : Scaled} {total : Nat}
    (denotes : run.foldl (fun value c => 10 * value + Text.digitValue c) scaled.significand = total)
    (fits : total < significandLimit) :
    scaled.addWhole run = { scaled with significand := total } := by
  induction run generalizing scaled with
  | nil =>
    cases denotes
    rfl
  | cons c run ih =>
    have atMost := (le_foldl run _).trans_eq denotes
    have here := atMost.trans_lt fits
    rw [addWhole]
    simp only [if_pos here]
    exact ih denotes

end Scaled

theorem scale_negSucc (x : Magnitude) {n : Nat} (few : n < greatestPower) :
    scale x (.negSucc n) = x.div (powerOfTen (n + 1)) :=
  if_pos few

/-- A number with a zero fraction is read as a tenth of its tenfold. -/
theorem value_zeroFraction {negative : Bool} {n : Nat} {start x : Magnitude}
    (fits : 10 * n < significandLimit) (rounded : Magnitude.ofNat (10 * n) = some start)
    (tenth : start.div (powerOfTen 1) = some x) :
    (⟨negative, Text.ofNat n, some ['0'], none⟩ : NumberLiteral).value =
      .ok (.real (.finite negative x)) := by
  have whole : (⟨0, 0⟩ : Scaled).addWhole (Text.ofNat n) = ⟨n, 0⟩ :=
    Scaled.addWhole_eq (Text.decimalValue_ofNat n) (by omega)
  have scaled : (⟨n, 0⟩ : Scaled).addFraction ['0'] = ⟨10 * n, -1⟩ := by
    have next : 10 * n + Text.digitValue '0' = 10 * n := rfl
    simp only [Scaled.addFraction, next, if_pos fits]
    rfl
  have scale : scale start (-1) = some x := (scale_negSucc start (by decide)).trans tenth
  simp only [NumberLiteral.value, NumberLiteral.integer?, Option.isSome_some, true_or, if_true,
    Option.getD_some, whole, scaled, Scaled.magnitude?, rounded, scale]

end Json

namespace FieldValue

open Json

/-- A number in range holds its field value, whatever blanks stand in front of it. -/
theorem holds_number {before text : Text} {parts : NumberLiteral} {numeral : Numeral}
    (blankBefore : IsBlank before) (number : NumberText text parts)
    (inRange : parts.value = .ok numeral) :
    Holds (before ++ text) (.number numeral) (.number numeral.toBinary64) := by
  refine ⟨rfl, fun depth rest ends => ?_⟩
  have scalar : Token.scalar? (.number numeral) = some (.number numeral) := rfl
  refine readValue_of_scalar scalar ?_ depth
  rw [List.append_assoc, readToken_append blankBefore]
  exact number.accepts_readToken inRange rest ends

/-- A whole number is written by its digits and a zero fraction. -/
theorem compact_ofInt {n : Int} (small : n.natAbs < 2 ^ 53) :
    (ofInt n).toJson.compact = Text.ofInt n ++ ['.', '0'] := by
  change (Binary64.ofInt n).text .json = _
  by_cases zero : n = 0
  · subst zero
    decide
  · exact Binary64.text_ofInt zero small (by decide) (by decide)

/-- A whole number that has been written is read as a number, which is itself exactly if it comes
back from its tenfold. -/
theorem exists_readsAs_ofInt {n : Int} (small : n.natAbs < 2 ^ 53) :
    ∃ number, (ofInt n).ReadsAs (.number number) ∧
      (number = Binary64.ofInt n ↔ Magnitude.IsRecovered n.natAbs) := by
  obtain ⟨start, x, y, tenfold, itself, tenth, back⟩ := Magnitude.hasTenth small
  have digits : NumberText _ _ := numberText_ofInt n (.some (by decide : IsRun ['0']))
  have fits : 10 * n.natAbs < significandLimit := by
    unfold significandLimit
    omega
  have holds := holds_number isBlank_nil digits (value_zeroFraction fits tenfold tenth)
  refine ⟨.finite (decide (n < 0)) y, ?_, ?_⟩
  · rw [ReadsAs, compact_ofInt small]
    exact holds.accepts_readOptionalFieldValue FieldSpec.valueDepth
  · rw [← back, Binary64.ofInt, itself, Binary64.ofMagnitude?]
    simp

end FieldValue

namespace FieldMap

open Json

/-- A whole number of at most 53 bits, or the next one, is shown as it is typed, whether it is read
from plain decimal under a name or given as an integer. -/
theorem extract_read_whole {i : Int} (small : i.natAbs ≤ 2 ^ 53) {spelled name before after : Text}
    (literal : LiteralText spelled name) (plain : Expression.parse name = ⟨name, none⟩)
    (blankBefore : IsBlank before) (blankAfter : IsBlank after) :
    (∃ fields,
        FieldMap.read ("\x7b\"".toList ++ spelled ++ "\":".toList ++ before ++ Text.ofInt i ++
          after ++ "\x7d".toList) = .ok fields ∧ extract name fields = Text.ofInt i) ∧
      (FieldValue.ofInt i).display = Text.ofInt i := by
  have shown := FieldValue.display_ofInt small
  have digits : NumberText (Text.ofInt i) ⟨decide (i < 0), Text.ofNat i.natAbs, none, none⟩ := by
    simpa using numberText_ofInt i .none
  have holds : FieldValue.Holds (before ++ Text.ofInt i) _ (.ofInt i) :=
    FieldValue.holds_number blankBefore digits (value_ofInt (by omega))
  have read := holds.read_member blankAfter literal
  refine ⟨⟨_, by simpa using read, ?_⟩, shown⟩
  rw [extract, plain, Expression.extract, displayOf]
  simpa [NameMap.ofList, NameMap.get?_insert_self] using shown

/-- The least such number. -/
theorem extract_read_whole_least :
    let i : Int := -9007199254740992
    (∃ fields, FieldMap.read "\x7b\"k\": -9007199254740992\x7d".toList = .ok fields ∧
        extract ['k'] fields = "-9007199254740992".toList) ∧
      (FieldValue.ofInt i).display = "-9007199254740992".toList := by
  intro i
  have digits : Text.ofInt i = "-9007199254740992".toList := by decide
  have literal : LiteralText ['k'] ['k'] := literalText_plain (by decide)
  have space : IsBlank [' '] := by decide
  have typed := extract_read_whole (by decide : i.natAbs ≤ 2 ^ 53) literal (by decide) space
    isBlank_nil
  rw [digits] at typed
  exact typed

end FieldMap

namespace FieldSpec

/-- A specification with a whole number of at most 53 bits is read back with a number, and all else
as it was; the number is the same exactly if it comes back from its tenfold. -/
theorem read_write_whole {spec : FieldSpec} {n : Int} (whole : spec.value = some (.ofInt n))
    (small : n.natAbs < 2 ^ 53) :
    ∃ number, read (write [spec]) = .ok [{ spec with value := some (.number number) }] ∧
      (number = Binary64.ofInt n ↔ Magnitude.IsRecovered n.natAbs) := by
  obtain ⟨number, readsAs, back⟩ := FieldValue.exists_readsAs_ofInt small
  refine ⟨number, read_write_singleton ?_, back⟩
  rw [whole]
  exact .some readsAs

/-- A number next to the greatest one comes back, with a rule behind it. -/
theorem read_write_whole_recovered :
    let spec : FieldSpec :=
      ⟨"é".toList, some (.ofInt (-9007199254740990)), none, some "(k)[3]".toList, none⟩
    read (write [spec]) = .ok [spec] := by
  intro spec
  obtain ⟨number, read, back⟩ := read_write_whole
    (rfl : spec.value = some (.ofInt (-9007199254740990))) (by decide)
  obtain rfl := back.mpr (by decide)
  exact read

/-- The greatest whole number of 53 bits is read back as the one below it. -/
theorem read_write_greatest :
    let spec (n : Int) : FieldSpec := ⟨['k'], some (.ofInt n), none, none, none⟩
    (9007199254740991 : Int).natAbs ≤ 2 ^ 53 - 1 ∧
      read (write [spec 9007199254740991]) = .ok [spec 9007199254740990] ∧
        read (write [spec 9007199254740991]) ≠ .ok [spec 9007199254740991] := by
  intro spec
  have lost : (read (write [spec 9007199254740991])).toOption = some [spec 9007199254740990] := by
    decide +kernel
  have back : read (write [spec 9007199254740991]) = .ok [spec 9007199254740990] := by
    cases result : read (write [spec 9007199254740991]) with
    | error reason => rw [result] at lost; contradiction
    | ok specs => rw [result] at lost; exact congrArg _ (Option.some.inj lost)
  refine ⟨by decide, back, ?_⟩
  rw [back]
  decide

end FieldSpec

end FormFill
