import FormFill.Json.ReadError

/-! # JSON number literals

A literal is first cut into its parts and then evaluated. Literals without fraction and exponent
that fit 64 bits are integers. All others are evaluated in binary arithmetic: as many digits as fit
64 bits form a significand, which is rounded once and then scaled by a rounded power of ten, so the
result is not always the nearest number.
-/

namespace FormFill.Json

/-- The exponent of a literal: its sign and its digits. -/
structure ExponentPart where
  negative : Bool
  digits : Text
deriving DecidableEq

/-- The parts of a number literal. -/
structure NumberLiteral where
  negative : Bool
  whole : Text
  fraction : Option Text
  exponent : Option ExponentPart
deriving DecidableEq

/-- The nonempty digit run at the front of a text; `atEnd` is the error where the text has ended. -/
def digitRun (atEnd : ReadError) (text : Text) : Except ReadError (Text × Text) :=
  match Text.spanDigits text with
  | ([], []) => .error atEnd
  | ([], _ :: _) => malformed .invalidNumber
  | (run, rest) => .ok (run, rest)

/-- The whole part: a single zero, or a digit run that does not begin with zero. -/
def wholePart (atEnd : ReadError) (text : Text) : Except ReadError (Text × Text) := do
  let (run, rest) ← digitRun atEnd text
  match run with
  | '0' :: _ :: _ => malformed .invalidNumber
  | _ => return (run, rest)

/-- The fraction, if a point follows. -/
def fractionPart (atEnd : ReadError) : Text → Except ReadError (Option Text × Text)
  | '.' :: rest => do
    let (run, rest) ← digitRun atEnd rest
    return (some run, rest)
  | text => return (none, text)

/-- The digits of an exponent, after its sign. -/
def exponentDigits (atEnd : ReadError) (negative : Bool) (text : Text) :
    Except ReadError (Option ExponentPart × Text) := do
  let (run, rest) ← digitRun atEnd text
  return (some ⟨negative, run⟩, rest)

/-- The exponent, if an `e` follows. -/
def exponentPart (atEnd : ReadError) (text : Text) :
    Except ReadError (Option ExponentPart × Text) :=
  match text with
  | c :: rest =>
    if c = 'e' ∨ c = 'E' then
      match rest with
      | '+' :: rest => exponentDigits atEnd false rest
      | '-' :: rest => exponentDigits atEnd true rest
      | rest => exponentDigits atEnd false rest
    else .ok (none, text)
  | [] => .ok (none, text)

/-- Cut a literal into its parts; `atEnd` is the error where the text ends and a digit is due. -/
def numberLiteral (atEnd : ReadError) (text : Text) :
    Except ReadError (NumberLiteral × Text) := do
  let (negative, text) : Bool × Text :=
    match text with
    | '-' :: rest => (true, rest)
    | text => (false, text)
  let (whole, text) ← wholePart atEnd text
  let (fraction, text) ← fractionPart atEnd text
  let (exponent, text) ← exponentPart atEnd text
  return (⟨negative, whole, fraction, exponent⟩, text)

/-- Significands are unsigned 64-bit numbers and stay below this. -/
def significandLimit : Nat := 0x10000000000000000

/-- Exponents are signed 32-bit numbers and stay below this. -/
def exponentLimit : Nat := 0x80000000

/-- A significand and the power of ten that scales it. -/
structure Scaled where
  significand : Nat
  exponent : Int
deriving DecidableEq

/-- Take up whole digits: once one does not fit, it and all further ones only raise the exponent. -/
def Scaled.addWhole (scaled : Scaled) : Text → Scaled
  | [] => scaled
  | c :: rest =>
    let next := 10 * scaled.significand + Text.digitValue c
    if next < significandLimit then addWhole { scaled with significand := next } rest
    else { scaled with exponent := scaled.exponent + (rest.length + 1) }

/-- Take up fraction digits: once one does not fit, it and all further ones are ignored. -/
def Scaled.addFraction (scaled : Scaled) : Text → Scaled
  | [] => scaled
  | c :: rest =>
    let next := 10 * scaled.significand + Text.digitValue c
    if next < significandLimit then addFraction ⟨next, scaled.exponent - 1⟩ rest
    else scaled

-- Powers here are those of the core library, also where a wider library offers others.
attribute [local instance (2000)] instPowNat

/-- The magnitude of a power of ten, up to the greatest one there is. -/
def powerOfTen (n : Nat) : Magnitude := (Magnitude.ofNat (10 ^ n)).getD .zero

/-- The greatest power of ten that a magnitude can have. -/
def greatestPower : Nat := 308

/-- Scale a magnitude down by a power of ten, in steps of the greatest power; `steps` bounds their
number. -/
def scaleDown : Nat → Magnitude → Nat → Option Magnitude
  | 0, _, _ => some .zero
  | steps + 1, x, n =>
    if n ≤ greatestPower then x.div (powerOfTen n)
    else if x.rank = 0 then some x
    else
      match x.div (powerOfTen greatestPower) with
      | some x => scaleDown steps x (n - greatestPower)
      | none => none

/-- Scale a magnitude by a power of ten; none when the result is out of range. -/
def scale (x : Magnitude) : Int → Option Magnitude
  | .ofNat n =>
    if n ≤ greatestPower then x.mul (powerOfTen n)
    else if x.rank = 0 then some x
    else none
  | .negSucc n => scaleDown (n + 1) x (n + 1)

/-- The value of a significand under the exponent part of a literal. -/
def Scaled.magnitude? (scaled : Scaled) (exponent : Option ExponentPart) : Option Magnitude :=
  let start := (Magnitude.ofNat scaled.significand).getD .zero
  match exponent with
  | none => scale start scaled.exponent
  | some part =>
    let n := Text.decimalValue part.digits
    if n < exponentLimit then
      scale start (if part.negative then scaled.exponent - n else scaled.exponent + n)
    else if part.negative ∨ scaled.significand = 0 then some .zero
    else none

/-- The integer that a literal denotes, if it is to be read as one. A negative zero is not. -/
def NumberLiteral.integer? (parts : NumberLiteral) : Option Int :=
  let n := Text.decimalValue parts.whole
  if parts.fraction.isSome ∨ parts.exponent.isSome then none
  else if parts.negative then if 0 < n ∧ n ≤ 0x8000000000000000 then some (-n) else none
  else if n < significandLimit then some n
  else none

/-- The number that a literal denotes. -/
def NumberLiteral.value (parts : NumberLiteral) : Except ReadError Numeral :=
  match parts.integer? with
  | some value => .ok (.integer value)
  | none =>
    let scaled := ((⟨0, 0⟩ : Scaled).addWhole parts.whole).addFraction (parts.fraction.getD [])
    match scaled.magnitude? parts.exponent with
    | some magnitude => .ok (.real (.finite parts.negative magnitude))
    | none => malformed .numberOutOfRange

/-- Read a number. -/
def readNumber : Reader Numeral := fun text => do
  let (parts, rest) ← numberLiteral (.unfinished .value) text
  let value ← parts.value
  return (value, rest)

/-- Pass over a number, whatever its size. -/
def skipNumber : Reader Unit := fun text => do
  let (_, rest) ← numberLiteral (.malformed .invalidNumber) text
  return ((), rest)

end FormFill.Json
