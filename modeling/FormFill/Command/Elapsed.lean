import FormFill.Text.Decimal

/-! # Elapsed time

A time is written in the largest of seconds, milliseconds, microseconds and nanoseconds that it has
at least one of, with as many decimals as it takes to be exact.
-/

namespace FormFill.Elapsed

-- Powers here are those of the core library, also where a wider library offers others.
attribute [local instance (2000)] instPowNat

/-- `count / 10 ^ places` without trailing zeros. -/
def decimal (count places : Nat) : Text :=
  let digits := Text.ofNat (count % 10 ^ places)
  let fraction := List.replicate (places - digits.length) '0' ++ digits
  let shown := (fraction.reverse.dropWhile (· == '0')).reverse
  Text.ofNat (count / 10 ^ places) ++ if shown.isEmpty then [] else '.' :: shown

/-- The text of a number of nanoseconds. -/
def text (nanoseconds : Nat) : Text :=
  if 1000000000 ≤ nanoseconds then decimal nanoseconds 9 ++ "s".toList
  else if 1000000 ≤ nanoseconds then decimal nanoseconds 6 ++ "ms".toList
  else if 1000 ≤ nanoseconds then decimal nanoseconds 3 ++ "µs".toList
  else decimal nanoseconds 0 ++ "ns".toList

end FormFill.Elapsed
