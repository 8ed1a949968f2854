import FormFill.Text.Basic

/-! # Binary magnitudes and their rounding

A magnitude is a nonnegative finite number of the 64-bit binary format. The magnitudes are counted
in increasing order, so a magnitude is its rank in that order; `mantissa` and `exponent` give its
value `mantissa * 2 ^ exponent`. A quotient of natural numbers is rounded once, to the nearest
magnitude, and a tie goes to the even mantissa. All arithmetic is exact up to that one rounding.
-/

namespace FormFill

-- Powers here are those of the core library, also where a wider library offers others.
attribute [local instance (2000)] instPowNat

/-- A nonnegative finite binary number, by its rank among all of them. -/
structure Magnitude where
  rank : Nat
  rank_lt : rank < 2047 * 2 ^ (52 : Nat)
deriving DecidableEq

namespace Magnitude

def zero : Magnitude := ⟨0, by decide⟩

/-- The integer `mantissa` of the value `mantissa * 2 ^ exponent`. -/
def mantissa (x : Magnitude) : Nat :=
  if x.rank / 2 ^ (52 : Nat) = 0 then x.rank else x.rank % 2 ^ (52 : Nat) + 2 ^ (52 : Nat)

/-- The power of two in the value `mantissa * 2 ^ exponent`. -/
def exponent (x : Magnitude) : Int :=
  if x.rank / 2 ^ (52 : Nat) = 0 then -1074 else (x.rank / 2 ^ (52 : Nat) : Nat) - 1075

/-- The value is `numerator / denominator`. -/
def numerator (x : Magnitude) : Nat := x.mantissa * 2 ^ x.exponent.toNat

/-- The value is `numerator / denominator`. -/
def denominator (x : Magnitude) : Nat := 2 ^ (-x.exponent).toNat

/-- The greatest integer whose power of two is at most `num / den`, for positive `num` and `den`. -/
def floorLog2 (num den : Nat) : Int :=
  let guess : Int := (num.log2 : Int) - den.log2
  if den * 2 ^ guess.toNat ≤ num * 2 ^ (-guess).toNat then guess else guess - 1

/-- The natural number nearest to `num / den`; a tie goes to the even one. -/
def nearestEven (num den : Nat) : Nat :=
  let below := num / den
  let rest := num % den
  if 2 * rest < den ∨ (2 * rest = den ∧ below % 2 = 0) then below else below + 1

/-- The magnitude nearest to `num / den`, or `none` when that lies beyond the greatest one. -/
def round (num den : Nat) : Option Magnitude :=
  if num = 0 then some zero
  else
    let grid := max (-1074) (floorLog2 num den - 52)
    let steps := nearestEven (num * 2 ^ (-grid).toNat) (den * 2 ^ grid.toNat)
    let rank := (grid + 1074).toNat * 2 ^ (52 : Nat) + steps
    if inRange : rank < 2047 * 2 ^ (52 : Nat) then some ⟨rank, inRange⟩ else none

/-- The magnitude nearest to a natural number. -/
def ofNat (n : Nat) : Option Magnitude := round n 1

/-- The rounded product. -/
def mul (x y : Magnitude) : Option Magnitude :=
  round (x.numerator * y.numerator) (x.denominator * y.denominator)

/-- The rounded quotient, by a nonzero divisor. -/
def div (x y : Magnitude) : Option Magnitude :=
  round (x.numerator * y.denominator) (x.denominator * y.numerator)

theorem ext {x y : Magnitude} (same : x.rank = y.rank) : x = y := by
  cases x; cases y; cases same; rfl

/-- The rank counts the grid steps below a magnitude. -/
theorem rank_eq (x : Magnitude) :
    x.rank = (x.exponent + 1074).toNat * 2 ^ (52 : Nat) + x.mantissa := by
  unfold mantissa exponent
  split <;> omega

end Magnitude

end FormFill
