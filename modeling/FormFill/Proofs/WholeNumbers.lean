import FormFill.FieldValue
import FormFill.Proofs.Rounding

/-! # Whole numbers in decimal

On a grid that is no coarser than the whole numbers, half a step reaches no other whole number. So
every whole decimal that rounds to a whole number is that number, the search for the shortest one
ends at the latest with its own digits, and its text is these digits, whatever the style.
-/

namespace FormFill

namespace Text

theorem ofNat_mul_ten {n : Nat} (positive : 0 < n) : ofNat (n * 10) = ofNat n ++ ['0'] := by
  have digits := Nat.toDigits_append_toDigits (b := 10) (d := 0) (by decide) positive (by decide)
  rw [Nat.mul_comm, ← Nat.add_zero (10 * n)]
  exact digits.symm

/-- A number times a power of ten is written with as many further zeros. -/
theorem ofNat_mul_pow_ten {n : Nat} (positive : 0 < n) (zeros : Nat) :
    ofNat (n * 10 ^ zeros) = ofNat n ++ List.replicate zeros '0' := by
  induction zeros with
  | zero => simp
  | succ zeros ih =>
    rw [Nat.pow_succ, ← Nat.mul_assoc, ofNat_mul_ten (by positivity), ih, List.append_assoc,
      ← List.replicate_succ']

theorem ofInt_eq (i : Int) : ofInt i = (if i < 0 then ['-'] else []) ++ ofNat i.natAbs := by
  cases i with
  | ofNat n => simp [ofInt]
  | negSucc n => simp [ofInt, Int.negSucc_lt_zero]

end Text

theorem TieRule.choose_eq (tie : TieRule) (below : Nat) :
    tie.choose below = below ∨ tie.choose below = below + 1 := by
  cases tie <;> grind [choose]

namespace Magnitude

/-- A magnitude that is a positive whole number, on a grid no coarser than the whole numbers. -/
structure IsNat (x : Magnitude) (n : Nat) : Prop where
  positive : 0 < n
  fine : x.exponent ≤ 0
  mantissa_eq : x.mantissa = n * 2 ^ (-x.exponent).toNat

/-- A positive whole number of at most 53 bits is rounded to itself. -/
theorem exists_isNat {n : Nat} (positive : 0 < n) (small : n < 2 ^ 53) :
    ∃ x, ofNat n = some x ∧ x.IsNat n := by
  have least : 2 ^ n.log2 ≤ n := Nat.log2_self_le positive.ne'
  have greatest : n < 2 ^ (n.log2 + 1) := Nat.lt_log2_self
  have bits : n.log2 ≤ 52 := by
    have log : n.log2 < 53 := (Nat.log2_lt positive.ne').mpr small
    omega
  obtain ⟨j, grid⟩ : ∃ j, n.log2 + j = 52 := ⟨52 - n.log2, by omega⟩
  have low : 2 ^ 52 ≤ n * 2 ^ j :=
    calc 2 ^ 52 = 2 ^ n.log2 * 2 ^ j := by rw [← Nat.pow_add, grid]
      _ ≤ n * 2 ^ j := Nat.mul_le_mul_right _ least
  have high : n * 2 ^ j < 2 ^ 53 :=
    calc n * 2 ^ j < 2 ^ (n.log2 + 1) * 2 ^ j :=
          Nat.mul_lt_mul_of_pos_right greatest (Nat.two_pow_pos j)
      _ = 2 ^ 53 := by rw [← Nat.pow_add, Nat.add_right_comm, grid]
  obtain ⟨x, rounded, rank⟩ : ∃ x, ofNat n = some x ∧
      x.rank = (1074 - j) * 2 ^ 52 + nearestEven (n * 2 ^ j) 1 :=
    exists_round_fine Nat.one_pos (by omega) (by omega) (by omega)
  have place : (-(j : Int) + 1074).toNat = 1074 - j := by omega
  rw [nearestEven_one, ← place] at rank
  obtain ⟨mantissa, exponent⟩ := parts_of_rank rank (by omega) low high
  refine ⟨x, rounded, positive, by omega, ?_⟩
  rw [mantissa, exponent, Int.neg_neg, Int.toNat_natCast]

section Shortest

variable {x : Magnitude} {n : Nat} {tie : TieRule}

theorem IsNat.pointSize_eq (isNat : x.IsNat n) (place : Nat) :
    x.pointSize place = 10 ^ place * (4 * 2 ^ (-x.exponent).toNat) := by
  have fine := isNat.fine
  have finer : (2 - x.exponent).toNat = 2 + (-x.exponent).toNat := by omega
  rw [pointSize, finer, Nat.pow_add, Int.toNat_natCast]

theorem IsNat.quarterSize_eq (isNat : x.IsNat n) (place : Nat) : x.quarterSize place = 1 := by
  have fine := isNat.fine
  have coarse : (x.exponent - 2).toNat = 0 ∧ (-(place : Int)).toNat = 0 := by omega
  simp [quarterSize, coarse]

/-- A whole decimal rounds to a whole number only if it is the same. -/
theorem IsNat.roundsBack_iff (isNat : x.IsNat n) (place point : Nat) :
    x.roundsBack place point = true ↔ point * 10 ^ place = n := by
  have step : 1 ≤ 2 ^ (-x.exponent).toNat := Nat.one_le_two_pow
  have value : 4 * x.mantissa = n * (4 * 2 ^ (-x.exponent).toNat) := by
    rw [isNat.mantissa_eq]
    ring
  have scaled : point * x.pointSize place = point * 10 ^ place * (4 * 2 ^ (-x.exponent).toNat) := by
    rw [isNat.pointSize_eq, Nat.mul_assoc]
  constructor
  · intro reached
    have near : point * x.pointSize place ≤ 4 * x.mantissa + 2 ∧
        4 * x.mantissa ≤ point * x.pointSize place + 2 := by
      simp only [roundsBack, isNat.quarterSize_eq, lowerQuarters, upperQuarters,
        Nat.mul_one] at reached
      split at reached <;> split at reached <;>
        simp only [Bool.and_eq_true, decide_eq_true_eq] at reached <;> omega
    rw [scaled, value] at near
    -- a whole number next to `n` is four quarter steps of the grid away, or more
    have apart {low high : Nat} (less : low < high) :
        low * (4 * 2 ^ (-x.exponent).toNat) + 4 ≤ high * (4 * 2 ^ (-x.exponent).toNat) :=
      calc low * (4 * 2 ^ (-x.exponent).toNat) + 4
          ≤ low * (4 * 2 ^ (-x.exponent).toNat) + 4 * 2 ^ (-x.exponent).toNat := by omega
        _ = (low + 1) * (4 * 2 ^ (-x.exponent).toNat) := (Nat.succ_mul _ _).symm
        _ ≤ high * (4 * 2 ^ (-x.exponent).toNat) := Nat.mul_le_mul_right _ less
    rcases Nat.lt_trichotomy (point * 10 ^ place) n with less | same | more
    · have gap := apart less
      omega
    · exact same
    · have gap := apart more
      omega
  · intro same
    have positive : 0 < x.mantissa := by
      rw [isNat.mantissa_eq]
      exact Nat.mul_pos isNat.positive step
    rw [same, ← value] at scaled
    simp only [roundsBack, scaled, isNat.quarterSize_eq, lowerQuarters, upperQuarters, Nat.mul_one]
    split <;> split <;> simp only [Bool.and_eq_true, decide_eq_true_eq] <;> omega

/-- Of two neighbours on a grid, one that rounds to the magnitude is taken, if there is any. -/
theorem neighbour?_cases (x : Magnitude) (tie : TieRule) (place : Int) :
    let below := x.quarters * x.quarterSize place / x.pointSize place
    (x.neighbour? tie place = none ∧ x.roundsBack place below = false ∧
        x.roundsBack place (below + 1) = false) ∨
      ∃ point, x.neighbour? tie place = some point ∧ x.roundsBack place point = true := by
  intro below
  unfold neighbour?
  dsimp only
  split
  · next low high => exact .inl ⟨rfl, low, high⟩
  · next low high => exact .inr ⟨_, rfl, low⟩
  · next low high => exact .inr ⟨_, rfl, high⟩
  · next low high =>
    split
    · exact .inr ⟨_, rfl, low⟩
    · split
      · exact .inr ⟨_, rfl, high⟩
      · refine .inr ⟨_, rfl, ?_⟩
        rcases tie.choose_eq below with same | same <;> rw [same]
        · exact low
        · exact high

/-- A whole number is found on the grid of the whole numbers at the latest. -/
theorem IsNat.exists_neighbour? (isNat : x.IsNat n) :
    ∃ point, x.neighbour? tie (0 : Nat) = some point := by
  have below : x.quarters * x.quarterSize (0 : Nat) / x.pointSize (0 : Nat) = n := by
    rw [isNat.quarterSize_eq, isNat.pointSize_eq, Nat.pow_zero, Nat.mul_one, Nat.one_mul,
      quarters, isNat.mantissa_eq, Nat.mul_left_comm]
    exact Nat.mul_div_cancel _ (by positivity)
  have reached : x.roundsBack (0 : Nat) n = true := (isNat.roundsBack_iff 0 n).mpr (by simp)
  rcases x.neighbour?_cases tie (0 : Nat) with ⟨-, missed, -⟩ | ⟨point, found, -⟩
  · rw [below, reached] at missed
    contradiction
  · exact ⟨point, found⟩

/-- A neighbour of a whole number is that number. -/
theorem IsNat.eq_of_neighbour? (isNat : x.IsNat n) {place point : Nat}
    (found : x.neighbour? tie place = some point) : point * 10 ^ place = n := by
  rcases x.neighbour?_cases tie place with ⟨none, -, -⟩ | ⟨other, some, reached⟩
  · rw [none] at found
    contradiction
  · obtain rfl : other = point := Option.some.inj (some.symm.trans found)
    exact (isNat.roundsBack_iff place other).mp reached

/-- The search for a whole number ends at digits of its own. -/
theorem IsNat.exists_coarsest (isNat : x.IsNat n) (places : Nat) :
    ∃ point place : Nat, x.coarsest tie (places + 1074) = ⟨point, place⟩ ∧
      point * 10 ^ place = n := by
  induction places with
  | zero =>
    obtain ⟨point, found⟩ : ∃ point, x.neighbour? tie (0 : Nat) = some point :=
      isNat.exists_neighbour?
    refine ⟨point, 0, ?_, isNat.eq_of_neighbour? found⟩
    have place : ((1073 + 1 : Nat) : Int) - 1074 = (0 : Nat) := by decide
    rw [Nat.zero_add, coarsest, place, found]
  | succ places ih =>
    have place : ((places + 1074 + 1 : Nat) : Int) - 1074 = (places + 1 : Nat) := by omega
    rw [Nat.add_right_comm, coarsest, place]
    cases found : x.neighbour? tie (places + 1 : Nat) with
    | none => exact ih
    | some point => exact ⟨point, places + 1, rfl, isNat.eq_of_neighbour? found⟩

end Shortest

/-- A whole number of up to 16 digits is written in place, in every style that has room for it. -/
theorem IsNat.text_eq {x : Magnitude} {n : Nat} (isNat : x.IsNat n) (small : n < 10 ^ 16)
    {style : NumberStyle} (lowest : style.lowest ≤ 0) (highest : 15 ≤ style.highest) :
    x.text style = Text.ofNat n ++ style.wholeMark := by
  obtain ⟨point, place, shortest, same⟩ : ∃ point place : Nat,
      x.shortest style.tie = ⟨point, place⟩ ∧ point * 10 ^ place = n :=
    isNat.exists_coarsest _
  have positive : 0 < point := by
    refine Nat.pos_of_ne_zero ?_
    rintro rfl
    exact isNat.positive.ne (by rw [← same, Nat.zero_mul])
  have digits : Text.ofNat n = Text.ofNat point ++ List.replicate place '0' := by
    rw [← same, Text.ofNat_mul_pow_ten positive]
  have length : (Text.ofNat n).length ≤ 16 :=
    (Nat.length_toDigits_le_iff (by decide) (by decide)).mpr small
  have inPlace : 0 ≤ (⟨point, place⟩ : DecimalForm).scale ∧
      (⟨point, place⟩ : DecimalForm).scale ≤ 15 := by
    have digit := List.length_pos_of_ne_nil (Text.ofNat_ne_nil point)
    rw [digits, List.length_append, List.length_replicate] at length
    unfold DecimalForm.scale
    dsimp only
    omega
  unfold text
  rw [shortest]
  dsimp only
  rw [if_pos ⟨lowest.trans inPlace.1, inPlace.2.trans highest⟩, digits]
  simp [DecimalForm.positional]

theorem IsNat.rank_ne_zero {x : Magnitude} {n : Nat} (isNat : x.IsNat n) : x.rank ≠ 0 := by
  have positive : 0 < x.mantissa := by
    rw [isNat.mantissa_eq]
    exact Nat.mul_pos isNat.positive (by positivity)
  rw [x.rank_eq]
  omega

end Magnitude

namespace Binary64

/-- A whole number of at most 53 bits is written by its digits and the mark of the style. -/
theorem text_ofInt {i : Int} (nonzero : i ≠ 0) (small : i.natAbs < 2 ^ 53) {style : NumberStyle}
    (lowest : style.lowest ≤ 0) (highest : 15 ≤ style.highest) :
    (ofInt i).text style = Text.ofInt i ++ style.wholeMark := by
  obtain ⟨x, rounded, isNat⟩ := Magnitude.exists_isNat (Int.natAbs_pos.mpr nonzero) small
  have digits : x.text style = Text.ofNat i.natAbs ++ style.wholeMark :=
    isNat.text_eq (by omega) lowest highest
  rw [ofInt, rounded, Text.ofInt_eq]
  by_cases negative : i < 0 <;> simp [ofMagnitude?, text, isNat.rank_ne_zero, negative, digits]

end Binary64

/-- A whole number of at most 53 bits, or the next one, is displayed by its digits. -/
theorem FieldValue.display_ofInt {i : Int} (small : i.natAbs ≤ 2 ^ 53) :
    (ofInt i).display = Text.ofInt i := by
  rcases small.lt_or_eq with inside | edge
  · by_cases zero : i = 0
    · subst zero
      decide
    · have shown : (Binary64.ofInt i).text .display = Text.ofInt i ++ [] :=
        Binary64.text_ofInt zero inside (by decide) (by decide)
      rwa [List.append_nil] at shown
  · rcases Int.natAbs_eq i with same | same <;> rw [same, edge] <;> decide +kernel

end FormFill
