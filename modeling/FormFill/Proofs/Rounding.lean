import FormFill.Number.Magnitude
import Mathlib.Algebra.Order.Field.Power
import Mathlib.Data.Int.Log
import Mathlib.Data.Rat.Floor

/-! # What rounding gives

A quotient lies between two neighbouring powers of two, and these fix the grid on which it is
rounded: its place there is the nearest whole number of steps. So rounding depends on the quotient
alone.
-/

namespace FormFill.Magnitude

variable {num den otherNum otherDen : Nat}

section Grid

/-- Counting whole steps of a grid in a quotient is comparing it with their sum. -/
theorem scaled_le_iff (positive : 0 < den) (steps : Nat) (grid : Int) :
    steps * (den * 2 ^ grid.toNat) ≤ num * 2 ^ (-grid).toNat ↔
      (steps : ℚ) * 2 ^ grid ≤ num / den := by
  have scale : (2 : ℚ) ^ grid * 2 ^ (-grid).toNat = 2 ^ grid.toNat := by
    rw [← zpow_natCast, ← zpow_natCast, ← zpow_add₀ (by norm_num)]
    congr 1
    omega
  have room : (0 : ℚ) < 2 ^ (-grid).toNat := by positivity
  have together : (steps : ℚ) * 2 ^ grid * den * 2 ^ (-grid).toNat =
      steps * (den * 2 ^ grid.toNat) := by
    rw [← scale]
    ring
  rw [le_div_iff₀ (by exact_mod_cast positive), ← mul_le_mul_iff_left₀ room, together]
  exact_mod_cast Iff.rfl

/-- The greatest power of two that is at most a quotient is one of two candidates. -/
theorem floorLog2_eq_log (numPositive : 0 < num) (denPositive : 0 < den) :
    floorLog2 num den = Int.log 2 ((num : ℚ) / den) := by
  have positive : (0 : ℚ) < den := by exact_mod_cast denPositive
  have quotient : (0 : ℚ) < num / den := by positivity
  have numLow : (2 : ℚ) ^ (num.log2 : Int) ≤ num := by
    exact_mod_cast Nat.log2_self_le numPositive.ne'
  have numHigh : (num : ℚ) < 2 ^ (num.log2 + 1 : Int) := by
    exact_mod_cast Nat.lt_log2_self
  have denLow : (2 : ℚ) ^ (den.log2 : Int) ≤ den := by
    exact_mod_cast Nat.log2_self_le denPositive.ne'
  have denHigh : (den : ℚ) < 2 ^ (den.log2 + 1 : Int) := by
    exact_mod_cast Nat.lt_log2_self
  have low : (2 : ℚ) ^ ((num.log2 : Int) - den.log2 - 1) ≤ num / den := by
    rw [le_div_iff₀ positive]
    calc (2 : ℚ) ^ ((num.log2 : Int) - den.log2 - 1) * den
        ≤ 2 ^ ((num.log2 : Int) - den.log2 - 1) * 2 ^ (den.log2 + 1 : Int) := by gcongr
      _ = 2 ^ (num.log2 : Int) := by rw [← zpow_add₀ (by norm_num)]; congr 1; omega
      _ ≤ num := numLow
  have high : (num : ℚ) / den < 2 ^ ((num.log2 : Int) - den.log2 + 1) := by
    rw [div_lt_iff₀ positive]
    calc (num : ℚ) < 2 ^ (num.log2 + 1 : Int) := numHigh
      _ = 2 ^ ((num.log2 : Int) - den.log2 + 1) * 2 ^ (den.log2 : Int) := by
        rw [← zpow_add₀ (by norm_num)]; congr 1; omega
      _ ≤ 2 ^ ((num.log2 : Int) - den.log2 + 1) * den := by gcongr
  have log (e : Int) : (2 : ℚ) ^ e ≤ num / den ↔ e ≤ Int.log 2 ((num : ℚ) / den) :=
    Int.zpow_le_iff_le_log (by decide : 1 < 2) quotient
  have atLeast := (log _).mp low
  have below := mt (log _).mpr (not_le.mpr high)
  have reached : den * 2 ^ ((num.log2 : Int) - den.log2).toNat ≤
        num * 2 ^ (-((num.log2 : Int) - den.log2)).toNat ↔
      (num.log2 : Int) - den.log2 ≤ Int.log 2 ((num : ℚ) / den) := by
    rw [← log, ← Nat.one_mul (den * _), scaled_le_iff denPositive, Nat.cast_one, one_mul]
  unfold floorLog2
  dsimp only
  split
  · next reaches =>
    have logged := reached.mp reaches
    omega
  · next misses =>
    have logged := mt reached.mpr misses
    omega

theorem floorLog2_congr (numPositive : 0 < num) (denPositive : 0 < den)
    (otherPositive : 0 < otherDen) (same : num * otherDen = otherNum * den) :
    floorLog2 num den = floorLog2 otherNum otherDen := by
  have otherNumPositive : 0 < otherNum := by
    refine Nat.pos_of_ne_zero fun zero => ?_
    rw [zero, Nat.zero_mul] at same
    exact (Nat.mul_pos numPositive otherPositive).ne' same
  rw [floorLog2_eq_log numPositive denPositive, floorLog2_eq_log otherNumPositive otherPositive]
  congr 1
  rw [div_eq_div_iff (by positivity) (by positivity)]
  exact_mod_cast same

/-- A quotient of 53-bit steps of a grid lies 52 powers of two above it. -/
theorem floorLog2_eq {grid : Int} (positive : 0 < den)
    (low : 2 ^ 52 * (den * 2 ^ grid.toNat) ≤ num * 2 ^ (-grid).toNat)
    (high : num * 2 ^ (-grid).toNat < 2 ^ 53 * (den * 2 ^ grid.toNat)) :
    floorLog2 num den = grid + 52 := by
  have numPositive : 0 < num := by
    refine Nat.pos_of_ne_zero fun zero => ?_
    rw [zero, Nat.zero_mul] at low
    have room : 0 < 2 ^ 52 * (den * 2 ^ grid.toNat) := by positivity
    omega
  have quotient : (0 : ℚ) < num / den := by positivity
  have log (e : Int) : (2 : ℚ) ^ e ≤ num / den ↔ e ≤ Int.log 2 ((num : ℚ) / den) :=
    Int.zpow_le_iff_le_log (by decide : 1 < 2) quotient
  have low := (scaled_le_iff positive _ grid).mp low
  have high := mt (scaled_le_iff positive _ grid).mpr (not_le.mpr high)
  rw [floorLog2_eq_log numPositive positive]
  have atLeast : grid + 52 ≤ Int.log 2 ((num : ℚ) / den) := by
    rw [← log, zpow_add₀ (by norm_num), mul_comm]
    exact_mod_cast low
  have below : ¬ grid + 53 ≤ Int.log 2 ((num : ℚ) / den) := by
    rw [← log, zpow_add₀ (by norm_num), mul_comm]
    exact_mod_cast high
  omega

end Grid

section NearestEven

/-- A common factor changes no nearest number. -/
theorem nearestEven_mul_right (num den : Nat) {factor : Nat} (positive : 0 < factor) :
    nearestEven (num * factor) (den * factor) = nearestEven num den := by
  have rest : 2 * (num * factor % (den * factor)) = 2 * (num % den) * factor := by
    rw [Nat.mul_mod_mul_right, Nat.mul_assoc]
  simp only [nearestEven, rest, Nat.mul_div_mul_right _ _ positive,
    Nat.mul_lt_mul_right positive, Nat.mul_left_inj positive.ne']

theorem nearestEven_congr (positive : 0 < den) (otherPositive : 0 < otherDen)
    (same : num * otherDen = otherNum * den) :
    nearestEven num den = nearestEven otherNum otherDen := by
  rw [← nearestEven_mul_right num den otherPositive, same, Nat.mul_comm den,
    nearestEven_mul_right otherNum otherDen positive]

theorem nearestEven_one (n : Nat) : nearestEven n 1 = n := by
  simp [nearestEven, Nat.mod_one]

theorem nearestEven_le {bound : Nat} (positive : 0 < den) (below : num < bound * den) :
    nearestEven num den ≤ bound := by
  have quotient : num / den < bound := (Nat.div_lt_iff_lt_mul positive).mpr below
  unfold nearestEven
  dsimp only
  split <;> omega

theorem le_nearestEven {bound : Nat} (positive : 0 < den) (reached : bound * den ≤ num) :
    bound ≤ nearestEven num den := by
  have quotient : bound ≤ num / den := (Nat.le_div_iff_mul_le positive).mpr reached
  unfold nearestEven
  dsimp only
  split <;> omega

/-- The nearest number is at most half a step away. -/
theorem nearestEven_near (num : Nat) (positive : 0 < den) :
    2 * num ≤ 2 * (nearestEven num den * den) + den ∧
      2 * (nearestEven num den * den) ≤ 2 * num + den := by
  have whole := Nat.div_add_mod' num den
  have rest := Nat.mod_lt num positive
  unfold nearestEven
  dsimp only
  split
  · omega
  · rw [Nat.add_mul, Nat.one_mul]
    omega

/-- An even number of steps moves a point and its nearest step alike. -/
theorem nearestEven_add_mul (num steps : Nat) (positive : 0 < den) :
    nearestEven (num + 2 * steps * den) den = nearestEven num den + 2 * steps := by
  have below : (num + 2 * steps * den) / den = num / den + 2 * steps :=
    Nat.add_mul_div_right _ _ positive
  have rest : (num + 2 * steps * den) % den = num % den := Nat.add_mul_mod_self_right _ _ _
  simp only [nearestEven, below, rest, Nat.add_mul_mod_self_left]
  split <;> omega

end NearestEven

/-- Rounding depends on the quotient alone. -/
theorem round_congr (positive : 0 < den) (otherPositive : 0 < otherDen)
    (same : num * otherDen = otherNum * den) : round num den = round otherNum otherDen := by
  by_cases zero : num = 0
  · subst zero
    obtain rfl : otherNum = 0 := by simpa [positive.ne', eq_comm] using same
    simp only [round, if_pos]
  · have otherNonzero : otherNum ≠ 0 := by
      rintro rfl
      simp [zero, otherPositive.ne'] at same
    have log := floorLog2_congr (Nat.pos_of_ne_zero zero) positive otherPositive same
    have steps (up down : Nat) : nearestEven (num * 2 ^ up) (den * 2 ^ down) =
        nearestEven (otherNum * 2 ^ up) (otherDen * 2 ^ down) :=
      nearestEven_congr (by positivity) (by positivity) (by
        rw [Nat.mul_mul_mul_comm, same, Nat.mul_mul_mul_comm])
    simp only [round, if_neg zero, if_neg otherNonzero, log, steps]

/-- A quotient of 53-bit steps of a grid is rounded to the nearest step. -/
theorem exists_round {grid : Int} (positive : 0 < den)
    (low : 2 ^ 52 * (den * 2 ^ grid.toNat) ≤ num * 2 ^ (-grid).toNat)
    (high : num * 2 ^ (-grid).toNat < 2 ^ 53 * (den * 2 ^ grid.toNat))
    (finest : -1074 ≤ grid) (inRange : grid ≤ 970) :
    ∃ x, round num den = some x ∧ x.rank = (grid + 1074).toNat * 2 ^ 52 +
      nearestEven (num * 2 ^ (-grid).toNat) (den * 2 ^ grid.toNat) := by
  have nonzero : num ≠ 0 := by
    rintro rfl
    have room : 0 < 2 ^ 52 * (den * 2 ^ grid.toNat) := by positivity
    omega
  have log : max (-1074) (floorLog2 num den - 52) = grid := by
    rw [floorLog2_eq positive low high]
    omega
  have steps := nearestEven_le (by positivity) high
  have fits : (grid + 1074).toNat * 2 ^ 52 +
      nearestEven (num * 2 ^ (-grid).toNat) (den * 2 ^ grid.toNat) < 2047 * 2 ^ 52 := by
    omega
  exact ⟨⟨_, fits⟩, by simp only [round, if_neg nonzero, log, dif_pos fits], rfl⟩

/-- Rounding on the grid `1 / 2 ^ j`. -/
theorem exists_round_fine {j : Nat} (positive : 0 < den) (low : 2 ^ 52 * den ≤ num * 2 ^ j)
    (high : num * 2 ^ j < 2 ^ 53 * den) (finest : j ≤ 1074) :
    ∃ x, round num den = some x ∧
      x.rank = (1074 - j) * 2 ^ 52 + nearestEven (num * 2 ^ j) den := by
  have up : den * 2 ^ (-(j : Int)).toNat = den := by
    rw [Int.toNat_of_nonpos (by omega), Nat.pow_zero, Nat.mul_one]
  have down : (- -(j : Int)).toNat = j := by omega
  have place : (-(j : Int) + 1074).toNat = 1074 - j := by omega
  obtain ⟨x, rounded, rank⟩ : ∃ x, round num den = some x ∧
      x.rank = (-(j : Int) + 1074).toNat * 2 ^ 52 +
        nearestEven (num * 2 ^ (- -(j : Int)).toNat) (den * 2 ^ (-(j : Int)).toNat) :=
    exists_round positive (by rwa [up, down]) (by rwa [up, down]) (by omega) (by omega)
  rw [up, down, place] at rank
  exact ⟨x, rounded, rank⟩

/-- Rounding on the grid `2 ^ k`. -/
theorem exists_round_coarse {k : Nat} (positive : 0 < den) (low : 2 ^ 52 * (den * 2 ^ k) ≤ num)
    (high : num < 2 ^ 53 * (den * 2 ^ k)) (inRange : k ≤ 970) :
    ∃ x, round num den = some x ∧
      x.rank = (k + 1074) * 2 ^ 52 + nearestEven num (den * 2 ^ k) := by
  have up : (k : Int).toNat = k := Int.toNat_natCast k
  have down : num * 2 ^ (-(k : Int)).toNat = num := by
    rw [Int.toNat_of_nonpos (by omega), Nat.pow_zero, Nat.mul_one]
  have place : ((k : Int) + 1074).toNat = k + 1074 := by omega
  obtain ⟨x, rounded, rank⟩ : ∃ x, round num den = some x ∧
      x.rank = ((k : Int) + 1074).toNat * 2 ^ 52 +
        nearestEven (num * 2 ^ (-(k : Int)).toNat) (den * 2 ^ (k : Int).toNat) :=
    exists_round positive (by rwa [up, down]) (by rwa [up, down]) (by omega) (by omega)
  rw [up, down, place] at rank
  exact ⟨x, rounded, rank⟩

/-- A rank within the 53-bit steps of a grid has that grid and those steps. -/
theorem parts_of_rank {x : Magnitude} {grid : Int} {steps : Nat}
    (rank : x.rank = (grid + 1074).toNat * 2 ^ 52 + steps) (finest : -1074 ≤ grid)
    (low : 2 ^ 52 ≤ steps) (high : steps < 2 ^ 53) : x.mantissa = steps ∧ x.exponent = grid := by
  unfold mantissa exponent
  constructor <;> split <;> omega

end FormFill.Magnitude
