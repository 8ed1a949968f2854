import FormFill.Json.NumberLiteral
import FormFill.Proofs.WholeNumbers

/-! # A tenth of the tenfold

A whole number that is written with a zero fraction is read as its tenfold, divided by ten. Both
steps round: the tenfold to a multiple of a power of two, as soon as it has more than 53 bits, and
its tenth to the grid of the whole number. Whether the number comes back depends on these two grids
and on its last bits alone, so a table of residues decides it.
-/

namespace FormFill.Magnitude

/-- The whole numbers of at most 53 bits that come back. A tenfold of up to 54 bits is exact, so all
up to `1801439850948198` do. -/
def IsRecovered (n : Nat) : Prop :=
  (2 ^ 54 ≤ 10 * n → n < 2 ^ 51 → n % 2 = 0) ∧
    (2 ^ 55 ≤ 10 * n → n < 2 ^ 52 → n % 4 ≠ 2) ∧
      (2 ^ 56 ≤ 10 * n → n % 8 ≠ 1 ∧ n % 8 ≠ 4 ∧ n % 8 ≠ 7)

instance : DecidablePred IsRecovered := fun _ => inferInstanceAs (Decidable (_ ∧ _ ∧ _))

section Residues

/-- The tenfold, rounded to a multiple of `2 ^ k`. -/
def tenfold (k n : Nat) : Nat := nearestEven (10 * n) (2 ^ k) * 2 ^ k

/-- A number comes back from its tenfold on the grid `2 ^ k` when the tenth of that is rounded to a
multiple of `1 / 2 ^ j`. -/
def ComesBack (k j n : Nat) : Prop := nearestEven (tenfold k n * 2 ^ j) 10 = n * 2 ^ j

instance (k j n : Nat) : Decidable (ComesBack k j n) := inferInstanceAs (Decidable (_ = _))

theorem tenfold_add (k n blocks : Nat) :
    tenfold k (n + blocks * 2 ^ k) = tenfold k n + 10 * (blocks * 2 ^ k) := by
  have steps : 10 * (n + blocks * 2 ^ k) = 10 * n + 2 * (5 * blocks) * 2 ^ k := by ring
  rw [tenfold, steps, nearestEven_add_mul _ _ (Nat.two_pow_pos k), tenfold]
  ring

theorem comesBack_add (k j n blocks : Nat) :
    ComesBack (k + 1) j (n + blocks * 2 ^ (k + 1)) ↔ ComesBack (k + 1) j n := by
  have steps : (tenfold (k + 1) n + 10 * (blocks * 2 ^ (k + 1))) * 2 ^ j =
      tenfold (k + 1) n * 2 ^ j + 2 * (blocks * 2 ^ k * 2 ^ j) * 10 := by ring
  have block : blocks * 2 ^ (k + 1) * 2 ^ j = 2 * (blocks * 2 ^ k * 2 ^ j) := by ring
  unfold ComesBack
  rw [tenfold_add, steps, nearestEven_add_mul _ _ (by decide), Nat.add_mul, block,
    Nat.add_right_cancel_iff]

/-- Whether a number comes back is read off a table of residues. -/
theorem comesBack_iff {k j n : Nat} {P : Nat → Prop}
    (table : ∀ r < 2 ^ (k + 1), ComesBack (k + 1) j r ↔ P r) :
    ComesBack (k + 1) j n ↔ P (n % 2 ^ (k + 1)) := by
  have blocks := comesBack_add k j (n % 2 ^ (k + 1)) (n / 2 ^ (k + 1))
  rw [Nat.mod_add_div'] at blocks
  rw [blocks, table _ (Nat.mod_lt _ (Nat.two_pow_pos _))]

end Residues

variable {x : Magnitude} {n k j : Nat}

/-- A number of more than 53 bits is rounded to a multiple of a power of two. -/
theorem exists_coarse (low : 2 ^ 52 * 2 ^ k ≤ n) (high : n < 2 ^ 53 * 2 ^ k) (inRange : k ≤ 970) :
    ∃ x, ofNat n = some x ∧ x.numerator = nearestEven n (2 ^ k) * 2 ^ k * x.denominator := by
  have point : 1 * 2 ^ k = 2 ^ k := Nat.one_mul _
  obtain ⟨x, rounded, rank⟩ : ∃ x, ofNat n = some x ∧
      x.rank = (k + 1074) * 2 ^ 52 + nearestEven n (1 * 2 ^ k) :=
    exists_round_coarse Nat.one_pos (by rwa [point]) (by rwa [point]) inRange
  rw [point] at rank
  have least : 2 ^ 52 ≤ nearestEven n (2 ^ k) := le_nearestEven (Nat.two_pow_pos k) low
  have greatest : nearestEven n (2 ^ k) ≤ 2 ^ 53 := nearestEven_le (Nat.two_pow_pos k) high
  have value {grid steps : Nat} (mantissa : x.mantissa = steps) (exponent : x.exponent = grid) :
      x.numerator = steps * 2 ^ grid * x.denominator := by
    have whole : (-(grid : Int)).toNat = 0 := by omega
    rw [numerator, denominator, mantissa, exponent, whole, Int.toNat_natCast, Nat.pow_zero,
      Nat.mul_one]
  refine ⟨x, rounded, ?_⟩
  rcases greatest.lt_or_eq with full | carried
  · have gridRank : x.rank = ((k : Int) + 1074).toNat * 2 ^ 52 + nearestEven n (2 ^ k) := rank
    obtain ⟨mantissa, exponent⟩ := parts_of_rank gridRank (by omega) least full
    exact value mantissa exponent
  · -- all 53 bits are carried over, so the mantissa is the first of the next grid
    have nextRank : x.rank = (((k + 1 : Nat) : Int) + 1074).toNat * 2 ^ 52 + 2 ^ 52 := by
      rw [rank, carried]
      omega
    obtain ⟨mantissa, exponent⟩ := parts_of_rank nextRank (by omega) le_rfl (by omega)
    rw [value mantissa exponent, carried]
    ring

theorem IsNat.numerator_eq (isNat : x.IsNat n) : x.numerator = n * x.denominator := by
  have whole : x.exponent.toNat = 0 := Int.toNat_of_nonpos isNat.fine
  rw [numerator, denominator, isNat.mantissa_eq, whole, Nat.pow_zero, Nat.mul_one]

/-- A tenth of a magnitude that is a whole number is rounded once. -/
theorem div_powerOfTen_one {v : Nat} (whole : x.numerator = v * x.denominator) :
    x.div (Json.powerOfTen 1) = round v 10 := by
  have ten : (Json.powerOfTen 1).numerator = 10 * (Json.powerOfTen 1).denominator := by decide
  have positive (y : Magnitude) : 0 < y.denominator := Nat.two_pow_pos _
  have divisor : 0 < x.denominator * (Json.powerOfTen 1).numerator := by
    rw [ten]
    exact Nat.mul_pos (positive x) (Nat.mul_pos (by decide) (positive _))
  refine round_congr divisor (by decide) ?_
  rw [ten, whole]
  ring

/-- A tenth of a whole number on the grid of the number is that number or another one there. -/
theorem exists_round_tenth {v : Nat} (finest : j ≤ 1074)
    (range : 2 ^ 52 ≤ n * 2 ^ j ∧ n * 2 ^ j < 2 ^ 53)
    (tenthRange : 2 ^ 52 * 10 ≤ v * 2 ^ j ∧ v * 2 ^ j < 2 ^ 53 * 10) :
    ∃ x y, ofNat n = some x ∧ round v 10 = some y ∧
      (y = x ↔ nearestEven (v * 2 ^ j) 10 = n * 2 ^ j) := by
  obtain ⟨x, rounded, rank⟩ : ∃ x, ofNat n = some x ∧
      x.rank = (1074 - j) * 2 ^ 52 + nearestEven (n * 2 ^ j) 1 :=
    exists_round_fine Nat.one_pos (by omega) (by omega) finest
  obtain ⟨y, tenth, tenthRank⟩ :=
    exists_round_fine (by decide : 0 < 10) tenthRange.1 tenthRange.2 finest
  rw [nearestEven_one] at rank
  refine ⟨x, y, rounded, tenth, ?_⟩
  constructor
  · rintro rfl
    omega
  · intro same
    exact ext (by omega)

section Tenfold

/-- A whole number, its tenfold and the tenth of that are all in range, and the number comes back
exactly under a condition. -/
def HasTenth (n : Nat) (back : Prop) : Prop :=
  ∃ start x y, ofNat (10 * n) = some start ∧ ofNat n = some x ∧
    start.div (Json.powerOfTen 1) = some y ∧ (y = x ↔ back)

theorem HasTenth.of_iff {back other : Prop} (has : HasTenth n back) (same : back ↔ other) :
    HasTenth n other := by
  obtain ⟨start, x, y, tenfold, itself, tenth, decided⟩ := has
  exact ⟨start, x, y, tenfold, itself, tenth, decided.trans same⟩

/-- A number whose tenfold is exact comes back. -/
theorem hasTenth_of_exact (positive : 0 < n) (exact : 10 * n < 2 ^ 54) : HasTenth n True := by
  obtain ⟨start, rounded, value⟩ : ∃ start, ofNat (10 * n) = some start ∧
      start.numerator = 10 * n * start.denominator := by
    by_cases short : 10 * n < 2 ^ 53
    · obtain ⟨start, rounded, isNat⟩ := exists_isNat (Nat.mul_pos (by decide) positive) short
      exact ⟨start, rounded, isNat.numerator_eq⟩
    · obtain ⟨start, rounded, value⟩ : ∃ start, ofNat (10 * n) = some start ∧
          start.numerator = nearestEven (10 * n) (2 ^ 1) * 2 ^ 1 * start.denominator :=
        exists_coarse (by omega) (by omega) (by decide)
      have even : nearestEven (10 * n) (2 ^ 1) * 2 ^ 1 = 10 * n := by
        unfold nearestEven
        dsimp only
        split <;> omega
      exact ⟨start, rounded, even ▸ value⟩
  obtain ⟨x, itself, -⟩ := exists_isNat positive (by omega)
  have tenth : start.div (Json.powerOfTen 1) = some x := by
    rw [div_powerOfTen_one value, ← itself]
    exact round_congr (by decide) Nat.one_pos (by ring)
  exact ⟨start, x, x, rounded, itself, tenth, by simp⟩

/-- A number on the grid `1 / 2 ^ j` whose tenfold is rounded to the grid `2 ^ k`. -/
theorem hasTenth_of_grids (finest : j ≤ 1074) (coarsest : k ≤ 970)
    (range : 2 ^ 52 ≤ n * 2 ^ j ∧ n * 2 ^ j < 2 ^ 53)
    (tenfoldRange : 2 ^ 52 * 2 ^ k ≤ 10 * n ∧ 10 * n < 2 ^ 53 * 2 ^ k)
    (tenthRange : 2 ^ 52 * 10 ≤ tenfold k n * 2 ^ j ∧ tenfold k n * 2 ^ j < 2 ^ 53 * 10) :
    HasTenth n (ComesBack k j n) := by
  obtain ⟨start, rounded, value⟩ := exists_coarse tenfoldRange.1 tenfoldRange.2 coarsest
  obtain ⟨x, y, itself, tenth, back⟩ := exists_round_tenth finest range tenthRange
  exact ⟨start, x, y, rounded, itself, (div_powerOfTen_one value).trans tenth, back⟩

/-- A whole number of at most 53 bits, its rounded tenfold and the rounded tenth of that. -/
theorem hasTenth (small : n < 2 ^ 53) : HasTenth n (IsRecovered n) := by
  obtain rfl | positive := n.eq_zero_or_pos
  · exact ⟨zero, zero, zero, rfl, rfl, by decide, by decide⟩
  have near (k : Nat) : 20 * n ≤ 2 * tenfold k n + 2 ^ k ∧ 2 * tenfold k n ≤ 20 * n + 2 ^ k ∧
      2 ^ k ∣ tenfold k n := by
    have bounds := nearestEven_near (10 * n) (Nat.two_pow_pos k)
    refine ⟨?_, ?_, Nat.dvd_mul_left _ _⟩ <;> unfold tenfold <;> omega
  -- which grid the tenfold is rounded to, and on which the number lies
  by_cases exact : 10 * n < 2 ^ 54
  · refine (hasTenth_of_exact positive exact).of_iff (iff_of_true trivial ?_)
    simp only [IsRecovered]
    omega
  by_cases fours : 10 * n < 2 ^ 55
  · have step := near 2
    by_cases quarters : n < 2 ^ 51
    · refine (hasTenth_of_grids (k := 2) (j := 2) (by decide) (by decide) (by omega) (by omega)
        (by omega)).of_iff ((comesBack_iff (P := (· % 2 = 0)) (by decide)).trans ?_)
      simp only [IsRecovered]
      omega
    · refine (hasTenth_of_grids (k := 2) (j := 1) (by decide) (by decide) (by omega) (by omega)
        (by omega)).of_iff ((comesBack_iff (P := fun _ => True) (by decide)).trans ?_)
      simp only [IsRecovered, true_iff]
      omega
  by_cases eights : 10 * n < 2 ^ 56
  · have step := near 3
    by_cases halves : n < 2 ^ 52
    · refine (hasTenth_of_grids (k := 3) (j := 1) (by decide) (by decide) (by omega) (by omega)
        (by omega)).of_iff ((comesBack_iff (P := (· % 4 ≠ 2)) (by decide)).trans ?_)
      simp only [IsRecovered]
      omega
    · refine (hasTenth_of_grids (k := 3) (j := 0) (by decide) (by decide) (by omega) (by omega)
        (by omega)).of_iff ((comesBack_iff (P := fun _ => True) (by decide)).trans ?_)
      simp only [IsRecovered, true_iff]
      omega
  · have step := near 4
    refine (hasTenth_of_grids (k := 4) (j := 0) (by decide) (by decide) (by omega) (by omega)
      (by omega)).of_iff ((comesBack_iff (P := fun r => r % 8 ≠ 1 ∧ r % 8 ≠ 4 ∧ r % 8 ≠ 7)
        (by decide)).trans ?_)
    simp only [IsRecovered]
    omega

end Tenfold

end FormFill.Magnitude
