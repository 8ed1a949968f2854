import FormFill.Number.Magnitude
import FormFill.Text.Decimal

/-! # The shortest decimal of a magnitude

The numbers that round to a magnitude form an interval around it, with its ends included exactly
when the mantissa is even. On each grid of multiples of a power of ten, at most two neighbours of
the magnitude matter. The coarsest grid with a neighbour in the interval gives the fewest digits; of
two neighbours the nearer is taken, and a tie between them is settled by the caller's rule.
-/

namespace FormFill

-- Powers here are those of the core library, also where a wider library offers others.
attribute [local instance (2000)] instPowNat

/-- The value `coefficient * 10 ^ exponent`. -/
structure DecimalForm where
  coefficient : Nat
  exponent : Int
deriving DecidableEq

/-- Which of two equally near neighbours is taken. -/
inductive TieRule where
  | up
  | even
deriving DecidableEq

namespace TieRule

/-- The neighbour that the rule takes of `below` and `below + 1`. -/
def choose : TieRule → Nat → Nat
  | .up, below => below + 1
  | .even, below => if below % 2 = 0 then below else below + 1

end TieRule

namespace Magnitude

/-- The value in quarter steps of its own grid. -/
def quarters (x : Magnitude) : Nat := 4 * x.mantissa

/-- The upper end of the rounding interval in quarter steps: half a step above. -/
def upperQuarters (x : Magnitude) : Nat := 4 * x.mantissa + 2

/-- The lower end in quarter steps: half a step below, or a quarter where a finer grid begins. -/
def lowerQuarters (x : Magnitude) : Nat :=
  if x.mantissa = 2 ^ (52 : Nat) ∧ x.exponent ≠ -1074 then 4 * x.mantissa - 1
  else 4 * x.mantissa - 2

/-- The size of one point of the grid `10 ^ place`, on a common scale with `quarterSize`. -/
def pointSize (x : Magnitude) (place : Int) : Nat :=
  10 ^ place.toNat * 2 ^ (2 - x.exponent).toNat

/-- The size of a quarter step, on a common scale with `pointSize`. -/
def quarterSize (x : Magnitude) (place : Int) : Nat :=
  2 ^ (x.exponent - 2).toNat * 10 ^ (-place).toNat

/-- Whether the point `point * 10 ^ place` rounds to the magnitude. -/
def roundsBack (x : Magnitude) (place : Int) (point : Nat) : Bool :=
  let scaled := point * x.pointSize place
  let low := x.lowerQuarters * x.quarterSize place
  let high := x.upperQuarters * x.quarterSize place
  if x.mantissa % 2 = 0 then low ≤ scaled && scaled ≤ high
  else low < scaled && scaled < high

/-- The nearer of the neighbours on the grid `10 ^ place` that round to the magnitude. -/
def neighbour? (x : Magnitude) (tie : TieRule) (place : Int) : Option Nat :=
  let value := x.quarters * x.quarterSize place
  let below := value / x.pointSize place
  match x.roundsBack place below, x.roundsBack place (below + 1) with
  | false, false => none
  | true, false => some below
  | false, true => some (below + 1)
  | true, true =>
    let gap := value - below * x.pointSize place
    let gapAbove := (below + 1) * x.pointSize place - value
    if gap < gapAbove then some below
    else if gapAbove < gap then some (below + 1)
    else some (tie.choose below)

/-- The first neighbour found from the grid `10 ^ (places - 1074)` down to the finest grid, on which
every magnitude lies. -/
def coarsest (x : Magnitude) (tie : TieRule) : Nat → DecimalForm
  | 0 => ⟨x.mantissa * 2 ^ (x.exponent + 1074).toNat * 5 ^ (1074 : Nat), -1074⟩
  | places + 1 =>
    let place : Int := (places + 1 : Nat) - 1074
    match x.neighbour? tie place with
    | some point => ⟨point, place⟩
    | none => coarsest x tie places

/-- The shortest decimal that rounds to a positive magnitude. -/
def shortest (x : Magnitude) (tie : TieRule) : DecimalForm :=
  x.coarsest tie ((Text.ofNat (x.numerator / x.denominator)).length + 1074)

end Magnitude

end FormFill
