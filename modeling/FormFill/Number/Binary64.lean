import FormFill.Number.Magnitude

/-! # Binary floating-point numbers

A number is not a number, an infinity, or a signed magnitude; both zeros are kept apart. The 64-bit
pattern is only a code: the sign in the top bit and, below it, the rank of the magnitude.
-/

namespace FormFill

-- Powers here are those of the core library, also where a wider library offers others.
attribute [local instance (2000)] instPowNat

/-- A number of the 64-bit binary format. All patterns that are not a number count as one. -/
inductive Binary64 where
  | nan
  | infinity (negative : Bool)
  | finite (negative : Bool) (magnitude : Magnitude)
deriving DecidableEq

namespace Binary64

/-- The rank just above the greatest magnitude, which codes an infinity. -/
def infinityRank : Nat := 2047 * 2 ^ (52 : Nat)

/-- The number that a 64-bit pattern codes. -/
def ofBits (bits : UInt64) : Binary64 :=
  let negative := 2 ^ (63 : Nat) ≤ bits.toNat
  let rank := bits.toNat % 2 ^ (63 : Nat)
  if inRange : rank < 2047 * 2 ^ (52 : Nat) then .finite negative ⟨rank, inRange⟩
  else if rank = infinityRank then .infinity negative
  else .nan

/-- The pattern of a number, if it is a number. -/
def bits? : Binary64 → Option UInt64
  | .nan => none
  | .infinity negative =>
    some (UInt64.ofNat ((if negative then 2 ^ (63 : Nat) else 0) + infinityRank))
  | .finite negative magnitude =>
    some (UInt64.ofNat ((if negative then 2 ^ (63 : Nat) else 0) + magnitude.rank))

/-- A signed magnitude, or the infinity of that sign when there is none. -/
def ofMagnitude? (negative : Bool) : Option Magnitude → Binary64
  | some magnitude => .finite negative magnitude
  | none => .infinity negative

/-- The number nearest to an integer. -/
def ofInt (i : Int) : Binary64 := ofMagnitude? (decide (i < 0)) (Magnitude.ofNat i.natAbs)

/-- Whether the number is neither a zero nor not-a-number. -/
def isNonzero : Binary64 → Bool
  | .nan => false
  | .infinity _ => true
  | .finite _ magnitude => magnitude.rank != 0

end Binary64

end FormFill
