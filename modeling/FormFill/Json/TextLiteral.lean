import FormFill.Json.ReadError

/-! # JSON string literals

A literal is decoded scalar by scalar. Escapes by code unit pair up surrogates: a leading one must
be followed at once by the escape of a trailing one. The writer escapes quotes, backslashes and
controls only, so what it writes is decoded to the same text.
-/

namespace FormFill.Json

/-- The value of a hexadecimal digit. -/
def hexDigit? (c : Char) : Option Nat :=
  if '0' ≤ c ∧ c ≤ '9' then some (c.toNat - '0'.toNat)
  else if 'a' ≤ c ∧ c ≤ 'f' then some (c.toNat - 'a'.toNat + 10)
  else if 'A' ≤ c ∧ c ≤ 'F' then some (c.toNat - 'A'.toNat + 10)
  else none

/-- The number that hexadecimal digits denote, if all are such digits. -/
def hexValue? (digits : Text) : Option Nat :=
  digits.foldlM (fun value c => (hexDigit? c).map (16 * value + ·)) 0

/-- The scalar that an escape by a single letter stands for. -/
def escaped? : Char → Option Char
  | '"' => some '"'
  | '\\' => some '\\'
  | '/' => some '/'
  | 'b' => some '\x08'
  | 'f' => some '\x0c'
  | 'n' => some '\n'
  | 'r' => some '\r'
  | 't' => some '\t'
  | _ => none

def isLeading (unit : Nat) : Bool := 0xD800 ≤ unit && unit < 0xDC00

def isTrailing (unit : Nat) : Bool := 0xDC00 ≤ unit && unit < 0xE000

/-- The scalar beyond the basic plane that a surrogate pair stands for. -/
def pairedScalar (leading trailing : Nat) : Char :=
  Char.ofNat (0x10000 + (leading - 0xD800) * 0x400 + (trailing - 0xDC00))

/-- Where the decoder stands between two scalars of a literal. -/
inductive LiteralState where
  /-- Between characters. -/
  | plain
  /-- After a backslash. -/
  | escape
  /-- After `\u`, with the characters taken since, perhaps behind a leading surrogate. -/
  | unit (leading : Option Nat) (taken : Text)
  /-- After a leading surrogate, which must be followed by a backslash. -/
  | awaitBackslash (leading : Nat)
  /-- After a leading surrogate and a backslash, which must be followed by `u`. -/
  | awaitUnit (leading : Nat)

/-- Decode a literal after its opening quote, up to its closing quote. A code unit takes four bytes,
whatever they are, before its digits are looked at. -/
def literalFrom : LiteralState → Reader Text
  | _, [] => unfinished .text
  | .plain, c :: rest =>
    if c = '"' then .ok ([], rest)
    else if c = '\\' then literalFrom .escape rest
    else if c.toNat < 0x20 then malformed .controlCharacter
    else (literalFrom .plain rest).map fun (text, rest) => (c :: text, rest)
  | .escape, c :: rest =>
    if c = 'u' then literalFrom (.unit none []) rest
    else
      match escaped? c with
      | some scalar => (literalFrom .plain rest).map fun (text, rest) => (scalar :: text, rest)
      | none => malformed .invalidEscape
  | .unit leading taken, c :: rest =>
    let taken := taken ++ [c]
    if taken.byteSize < 4 then literalFrom (.unit leading taken) rest
    else
      match hexValue? taken, leading with
      | none, _ => malformed .invalidEscape
      | some unit, none =>
        if isTrailing unit then malformed .loneSurrogate
        else if isLeading unit then literalFrom (.awaitBackslash unit) rest
        else (literalFrom .plain rest).map fun (text, rest) => (Char.ofNat unit :: text, rest)
      | some unit, some leading =>
        if isTrailing unit then
          (literalFrom .plain rest).map fun (text, rest) =>
            (pairedScalar leading unit :: text, rest)
        else malformed .loneSurrogate
  | .awaitBackslash leading, c :: rest =>
    if c = '\\' then literalFrom (.awaitUnit leading) rest else malformed .unfinishedSurrogate
  | .awaitUnit leading, c :: rest =>
    if c = 'u' then literalFrom (.unit (some leading) []) rest else malformed .unfinishedSurrogate

/-- Decode a literal after its opening quote. -/
def readLiteral : Reader Text := literalFrom .plain

/-- Where the skipper stands inside a literal. -/
inductive SkipState where
  | plain
  | escape
  | unit (taken : Text)

/-- Pass over a literal after its opening quote. Escapes must have their shape, but surrogates need
not be paired. -/
def skipLiteralFrom : SkipState → Reader Unit
  | _, [] => unfinished .text
  | .plain, c :: rest =>
    if c = '"' then .ok ((), rest)
    else if c = '\\' then skipLiteralFrom .escape rest
    else if c.toNat < 0x20 then malformed .controlCharacter
    else skipLiteralFrom .plain rest
  | .escape, c :: rest =>
    if c = 'u' then skipLiteralFrom (.unit []) rest
    else if (escaped? c).isSome then skipLiteralFrom .plain rest
    else malformed .invalidEscape
  | .unit taken, c :: rest =>
    let taken := taken ++ [c]
    if taken.byteSize < 4 then skipLiteralFrom (.unit taken) rest
    else if (hexValue? taken).isSome then skipLiteralFrom .plain rest
    else malformed .invalidEscape

/-- Pass over a literal after its opening quote. -/
def skipLiteral : Reader Unit := skipLiteralFrom .plain

/-- How a scalar is written inside a literal. -/
def escape (c : Char) : Text :=
  if c = '"' then ['\\', '"']
  else if c = '\\' then ['\\', '\\']
  else if c = '\x08' then ['\\', 'b']
  else if c = '\x0c' then ['\\', 'f']
  else if c = '\n' then ['\\', 'n']
  else if c = '\r' then ['\\', 'r']
  else if c = '\t' then ['\\', 't']
  else if c.toNat < 0x20 then
    ['\\', 'u', '0', '0', Nat.digitChar (c.toNat / 16), Nat.digitChar (c.toNat % 16)]
  else [c]

/-- The literal of a text. -/
def writeLiteral (text : Text) : Text := '"' :: text.flatMap escape ++ ['"']

theorem hexValue?_control : ∀ n < 0x20,
    hexValue? ['0', '0', Nat.digitChar (n / 16), Nat.digitChar (n % 16)] = some n := by decide

private theorem utf8Size_digitChar : ∀ n < 16, (Nat.digitChar n).utf8Size = 1 := by decide

private theorem literalFrom_control {c : Char} (small : c.toNat < 0x20) (rest : Text) :
    literalFrom .plain
        ('\\' :: 'u' :: '0' :: '0' :: Nat.digitChar (c.toNat / 16) ::
          Nat.digitChar (c.toNat % 16) :: rest) =
      (literalFrom .plain rest).map fun (text, rest) => (c :: text, rest) := by
  have high := utf8Size_digitChar (c.toNat / 16) (by omega)
  have low := utf8Size_digitChar (c.toNat % 16) (by omega)
  have zero : ('0' : Char).utf8Size = 1 := rfl
  have value := hexValue?_control c.toNat small
  have trailing : isTrailing c.toNat = false := by simp [isTrailing]; omega
  have leading : isLeading c.toNat = false := by simp [isLeading]; omega
  simp [literalFrom, high, low, zero, value, trailing, leading]

/-- The forms in which a scalar is written: by a letter, by its code unit, or as it is. -/
inductive Written (c : Char) : Text → Prop
  | letter {letter : Char} (stands : escaped? letter = some c) : Written c ['\\', letter]
  | unit (small : c.toNat < 0x20) :
      Written c ['\\', 'u', '0', '0', Nat.digitChar (c.toNat / 16), Nat.digitChar (c.toNat % 16)]
  | plain (unquoted : c ≠ '"') (unescaped : c ≠ '\\') (printable : 0x20 ≤ c.toNat) : Written c [c]

theorem written_escape (c : Char) : Written c (escape c) := by
  unfold escape
  split
  · next same => exact .letter (by rw [same]; rfl)
  split
  · next same => exact .letter (by rw [same]; rfl)
  split
  · next same => exact .letter (by rw [same]; rfl)
  split
  · next same => exact .letter (by rw [same]; rfl)
  split
  · next same => exact .letter (by rw [same]; rfl)
  split
  · next same => exact .letter (by rw [same]; rfl)
  split
  · next same => exact .letter (by rw [same]; rfl)
  split
  · next small => exact .unit small
  · next unquoted unescaped _ _ _ _ _ large => exact .plain unquoted unescaped (Nat.not_lt.mp large)

theorem ne_u_of_escaped? {letter c : Char} (stands : escaped? letter = some c) : letter ≠ 'u' := by
  rintro rfl
  contradiction

/-- Decoding the written form of a scalar gives the scalar back. -/
theorem literalFrom_escape (c : Char) (rest : Text) :
    literalFrom .plain (escape c ++ rest) =
      (literalFrom .plain rest).map fun (text, rest) => (c :: text, rest) := by
  have form := written_escape c
  generalize escape c = written at form ⊢
  cases form with
  | letter stands => simp [literalFrom, ne_u_of_escaped? stands, stands]
  | unit small => exact literalFrom_control small rest
  | plain unquoted unescaped printable =>
    simp [literalFrom, unquoted, unescaped, Nat.not_lt.mpr printable]

/-- Decoding the literal of a text gives the text back, whatever follows it. -/
theorem readLiteral_writeLiteral (text rest : Text) :
    readLiteral (text.flatMap escape ++ '"' :: rest) = .ok (text, rest) := by
  unfold readLiteral
  induction text with
  | nil => rfl
  | cons c text ih =>
    rw [List.flatMap_cons, List.append_assoc, literalFrom_escape, ih]
    rfl

end FormFill.Json
