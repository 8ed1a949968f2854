import FormFill.Proofs.JsonTexts

/-! # The grammar of string literals

A string literal is made of plain characters, escapes by a letter and escapes by a code unit. It
denotes a text when its surrogates are paired; where it is only passed over it need not denote one.
Either way it is taken up to its closing quote, and a decoder that has taken a literal takes it in
front of any other text as well.
-/

namespace FormFill.Json

/-- The characters that stand for themselves in a literal. -/
def IsPlain (c : Char) : Prop := c ≠ '"' ∧ c ≠ '\\' ∧ 0x20 ≤ c.toNat

instance : DecidablePred IsPlain :=
  fun c => inferInstanceAs (Decidable (c ≠ '"' ∧ c ≠ '\\' ∧ 0x20 ≤ c.toNat))

/-- The texts of plain characters. -/
def IsPlainText (text : Text) : Prop := ∀ c ∈ text, IsPlain c

instance : DecidablePred IsPlainText := List.decidableBAll IsPlain

/-- Four hexadecimal digits and the code unit that they denote. -/
structure IsUnit (digits : Text) (unit : Nat) : Prop where
  four : digits.length = 4
  denoted : hexValue? digits = some unit

/-- The texts between the quotes of literals, with the texts that they denote. -/
inductive LiteralText : Text → Text → Prop
  | nil : LiteralText [] []
  | plain {c : Char} {spelled content : Text} (plain : IsPlain c)
      (further : LiteralText spelled content) : LiteralText (c :: spelled) (c :: content)
  | letter {letter c : Char} {spelled content : Text} (stands : escaped? letter = some c)
      (further : LiteralText spelled content) :
      LiteralText ('\\' :: letter :: spelled) (c :: content)
  | unit {digits spelled content : Text} {unit : Nat} (spelledUnit : IsUnit digits unit)
      (notLeading : isLeading unit = false) (notTrailing : isTrailing unit = false)
      (further : LiteralText spelled content) :
      LiteralText ('\\' :: 'u' :: (digits ++ spelled)) (Char.ofNat unit :: content)
  | pair {first second spelled content : Text} {leading trailing : Nat}
      (spelledFirst : IsUnit first leading) (isLeading : isLeading leading = true)
      (spelledSecond : IsUnit second trailing) (isTrailing : isTrailing trailing = true)
      (further : LiteralText spelled content) :
      LiteralText ('\\' :: 'u' :: (first ++ '\\' :: 'u' :: (second ++ spelled)))
        (pairedScalar leading trailing :: content)

/-- The texts between the quotes of literals, whether or not their surrogates are paired. -/
inductive LiteralShape : Text → Prop
  | nil : LiteralShape []
  | plain {c : Char} {spelled : Text} (plain : IsPlain c) (further : LiteralShape spelled) :
      LiteralShape (c :: spelled)
  | letter {letter c : Char} {spelled : Text} (stands : escaped? letter = some c)
      (further : LiteralShape spelled) : LiteralShape ('\\' :: letter :: spelled)
  | unit {digits spelled : Text} {unit : Nat} (spelledUnit : IsUnit digits unit)
      (further : LiteralShape spelled) : LiteralShape ('\\' :: 'u' :: (digits ++ spelled))

/-- A text of plain characters is spelled as it is. -/
theorem literalText_plain {content : Text} (plain : IsPlainText content) :
    LiteralText content content := by
  induction content with
  | nil => exact .nil
  | cons c content ih =>
    obtain ⟨first, others⟩ := List.forall_mem_cons.mp plain
    exact .plain first (ih others)

/-- What the writer puts out for a scalar can stand in front of any literal. -/
theorem LiteralText.escape {spelled content : Text} (further : LiteralText spelled content)
    (c : Char) : LiteralText (Json.escape c ++ spelled) (c :: content) := by
  have form := written_escape c
  generalize Json.escape c = written at form ⊢
  cases form with
  | letter stands => exact .letter stands further
  | unit small =>
    have unit : IsUnit ['0', '0', Nat.digitChar (c.toNat / 16), Nat.digitChar (c.toNat % 16)]
        c.toNat := ⟨rfl, hexValue?_control c.toNat small⟩
    have leading : isLeading c.toNat = false := by simp [isLeading]; omega
    have trailing : isTrailing c.toNat = false := by simp [isTrailing]; omega
    simpa using LiteralText.unit unit leading trailing further
  | plain unquoted unescaped printable => exact .plain ⟨unquoted, unescaped, printable⟩ further

/-- Every text is spelled by the literal that is written for it. -/
theorem literalText_escape (content : Text) : LiteralText (content.flatMap escape) content := by
  induction content with
  | nil => exact .nil
  | cons c content ih => exact ih.escape c

theorem LiteralText.shape {spelled content : Text} (literal : LiteralText spelled content) :
    LiteralShape spelled := by
  induction literal with
  | nil => exact .nil
  | plain plain _ ih => exact .plain plain ih
  | letter stands _ ih => exact .letter stands ih
  | unit spelledUnit _ _ _ ih => exact .unit spelledUnit ih
  | pair spelledFirst _ spelledSecond _ _ ih => exact .unit spelledFirst (.unit spelledSecond ih)

theorem utf8Size_of_hexDigit? {c : Char} {value : Nat} (digit : hexDigit? c = some value) :
    c.utf8Size = 1 := by
  have bound : c.toNat ≤ 'f'.toNat := by
    unfold hexDigit? at digit
    split at digit
    · next range => exact Nat.le_trans range.2 (by decide)
    · split at digit
      · next range => exact range.2
      · split at digit
        · next range => exact Nat.le_trans range.2 (by decide)
        · contradiction
  exact Char.utf8Size_eq_one_iff.mpr (Nat.le_trans bound (by decide))

/-- A code unit is written in four characters of one byte each. -/
theorem IsUnit.exists_digits {digits : Text} {unit : Nat} (spelled : IsUnit digits unit) :
    ∃ a b c d, digits = [a, b, c, d] ∧ a.utf8Size = 1 ∧ b.utf8Size = 1 ∧ c.utf8Size = 1 ∧
      d.utf8Size = 1 := by
  obtain ⟨four, denoted⟩ := spelled
  match digits, four with
  | [a, b, c, d], _ =>
    simp only [hexValue?, List.foldlM_cons, List.foldlM_nil, Option.bind_eq_bind,
      Option.bind_eq_some_iff, Option.map_eq_some_iff] at denoted
    obtain ⟨_, ⟨_, first, _⟩, _, ⟨_, second, _⟩, _, ⟨_, third, _⟩, _, ⟨_, fourth, _⟩, _⟩ := denoted
    exact ⟨a, b, c, d, rfl, utf8Size_of_hexDigit? first, utf8Size_of_hexDigit? second,
      utf8Size_of_hexDigit? third, utf8Size_of_hexDigit? fourth⟩

/-- A decoder takes the digits of a unit whole and then looks at their value. -/
theorem literalFrom_unit {digits : Text} {unit : Nat} (spelled : IsUnit digits unit)
    (rest : Text) : literalFrom (.unit none []) (digits ++ rest) =
      if isTrailing unit then malformed .loneSurrogate
      else if isLeading unit then literalFrom (.awaitBackslash unit) rest
      else (literalFrom .plain rest).map fun (text, rest) => (Char.ofNat unit :: text, rest) := by
  obtain ⟨a, b, c, d, rfl, first, second, third, fourth⟩ := spelled.exists_digits
  simp [literalFrom, first, second, third, fourth, spelled.denoted]

theorem literalFrom_pairedUnit {digits : Text} {unit : Nat} (spelled : IsUnit digits unit)
    (leading : Nat) (rest : Text) : literalFrom (.unit (some leading) []) (digits ++ rest) =
      if isTrailing unit then
        (literalFrom .plain rest).map fun (text, rest) => (pairedScalar leading unit :: text, rest)
      else malformed .loneSurrogate := by
  obtain ⟨a, b, c, d, rfl, first, second, third, fourth⟩ := spelled.exists_digits
  simp [literalFrom, first, second, third, fourth, spelled.denoted]

/-- A literal is decoded to the text that it denotes, up to its closing quote. -/
theorem LiteralText.readLiteral_eq {spelled content : Text} (literal : LiteralText spelled content)
    (rest : Text) : readLiteral (spelled ++ '"' :: rest) = .ok (content, rest) := by
  unfold readLiteral
  induction literal with
  | nil => rfl
  | plain plain _ ih =>
    obtain ⟨unquoted, unescaped, printable⟩ := plain
    simp [literalFrom, unquoted, unescaped, Nat.not_lt.mpr printable, ih, Except.map]
  | letter stands _ ih =>
    simp [literalFrom, ne_u_of_escaped? stands, stands, ih, Except.map]
  | unit spelledUnit notLeading notTrailing _ ih =>
    simp [literalFrom, literalFrom_unit spelledUnit, notLeading, notTrailing, ih, Except.map]
  | @pair first second _ _ leading trailing spelledFirst isLeading spelledSecond isTrailing _ ih =>
    have notTrailing : Json.isTrailing leading = false := by
      simp only [Json.isLeading, Json.isTrailing, Bool.and_eq_true, decide_eq_true_eq,
        Bool.and_eq_false_iff, decide_eq_false_iff_not] at isLeading ⊢
      omega
    simp [literalFrom, literalFrom_unit spelledFirst, literalFrom_pairedUnit spelledSecond,
      isLeading, notTrailing, isTrailing, ih, Except.map]

theorem LiteralText.readLiteral_closed {spelled content : Text}
    (literal : LiteralText spelled content) (rest : Text) :
    readLiteral (spelled ++ ['"'] ++ rest) = .ok (content, rest) := by
  simpa using literal.readLiteral_eq rest

/-- A literal is passed over up to its closing quote, whether or not its surrogates are paired. -/
theorem LiteralShape.skipLiteral_eq {spelled : Text} (literal : LiteralShape spelled)
    (rest : Text) : skipLiteral (spelled ++ '"' :: rest) = .ok ((), rest) := by
  unfold skipLiteral
  induction literal with
  | nil => rfl
  | plain plain _ ih =>
    obtain ⟨unquoted, unescaped, printable⟩ := plain
    simp [skipLiteralFrom, unquoted, unescaped, Nat.not_lt.mpr printable, ih]
  | letter stands _ ih => simp [skipLiteralFrom, ne_u_of_escaped? stands, stands, ih]
  | unit spelledUnit _ ih =>
    obtain ⟨a, b, c, d, rfl, first, second, third, fourth⟩ := spelledUnit.exists_digits
    simp [skipLiteralFrom, first, second, third, fourth, spelledUnit.denoted, ih]

theorem LiteralShape.skipLiteral_closed {spelled : Text} (literal : LiteralShape spelled)
    (rest : Text) : skipLiteral (spelled ++ ['"'] ++ rest) = .ok ((), rest) := by
  simpa using literal.skipLiteral_eq rest

theorem exists_of_map_eq_ok {α β : Type} {result : Except ReadError (α × Text)} {change : α → β}
    {value : β} {left : Text}
    (read : (result.map fun (item, rest) => (change item, rest)) = .ok (value, left)) :
    ∃ item, result = .ok (item, left) ∧ change item = value := by
  cases result with
  | error reason => contradiction
  | ok pair =>
    cases read
    exact ⟨pair.1, rfl, rfl⟩

/-- A decoder that takes a literal at all takes it up to its closing quote. -/
theorem LiteralShape.rest_of_literalFrom {spelled : Text} (literal : LiteralShape spelled)
    {state : LiteralState} (between : state = .plain ∨ ∃ leading, state = .awaitBackslash leading)
    {rest content left : Text}
    (read : literalFrom state (spelled ++ '"' :: rest) = .ok (content, left)) : left = rest := by
  induction literal generalizing state content with
  | nil =>
    rcases between with rfl | ⟨leading, rfl⟩
    · cases read; rfl
    · contradiction
  | plain plain _ ih =>
    obtain ⟨unquoted, unescaped, printable⟩ := plain
    rcases between with rfl | ⟨leading, rfl⟩
    · simp only [List.cons_append, literalFrom, unquoted, unescaped, Nat.not_lt.mpr printable,
        if_false] at read
      obtain ⟨_, read, -⟩ := exists_of_map_eq_ok read
      exact ih (.inl rfl) read
    · simp [literalFrom, unescaped, malformed] at read
  | letter stands _ ih =>
    have notUnit := ne_u_of_escaped? stands
    rcases between with rfl | ⟨leading, rfl⟩
    · simp [literalFrom, notUnit, stands] at read
      obtain ⟨_, read, -⟩ := exists_of_map_eq_ok read
      exact ih (.inl rfl) read
    · simp [literalFrom, notUnit, malformed] at read
  | @unit digits spelled unit spelledUnit _ ih =>
    rcases between with rfl | ⟨leading, rfl⟩
    · have read : literalFrom (.unit none []) (digits ++ (spelled ++ '"' :: rest)) =
          .ok (content, left) := by simpa [literalFrom] using read
      rw [literalFrom_unit spelledUnit] at read
      split at read
      · contradiction
      · split at read
        · exact ih (.inr ⟨unit, rfl⟩) read
        · obtain ⟨_, read, -⟩ := exists_of_map_eq_ok read
          exact ih (.inl rfl) read
    · have read : literalFrom (.unit (some leading) []) (digits ++ (spelled ++ '"' :: rest)) =
          .ok (content, left) := by simpa [literalFrom] using read
      rw [literalFrom_pairedUnit spelledUnit] at read
      split at read
      · obtain ⟨_, read, -⟩ := exists_of_map_eq_ok read
        exact ih (.inl rfl) read
      · contradiction

/-- What a decoder can do with a character, whatever stands behind it: refuse it, stop, or go on in
a state, perhaps with a scalar put out. -/
inductive LiteralStep (state : LiteralState) (c : Char) : Prop
  | refuse (reason : ReadError) (step : ∀ rest, literalFrom state (c :: rest) = .error reason)
  | stop (step : ∀ rest, literalFrom state (c :: rest) = .ok ([], rest))
  | go (next : LiteralState)
      (step : ∀ rest, literalFrom state (c :: rest) = literalFrom next rest)
  | put (scalar : Char) (next : LiteralState)
      (step : ∀ rest, literalFrom state (c :: rest) =
        (literalFrom next rest).map fun (text, rest) => (scalar :: text, rest))

theorem literalStep (state : LiteralState) (c : Char) : LiteralStep state c := by
  cases state with
  | plain =>
    by_cases quote : c = '"'
    · exact .stop fun rest => by simp [literalFrom, quote]
    by_cases backslash : c = '\\'
    · exact .go .escape fun rest => by simp [literalFrom, backslash]
    by_cases control : c.toNat < 0x20
    · exact .refuse _ fun rest => by simp [literalFrom, quote, backslash, control, malformed]; rfl
    · exact .put c .plain fun rest => by simp [literalFrom, quote, backslash, control]
  | escape =>
    by_cases unit : c = 'u'
    · exact .go (.unit none []) fun rest => by simp [literalFrom, unit]
    cases stands : escaped? c with
    | none => exact .refuse _ fun rest => by simp [literalFrom, unit, stands, malformed]; rfl
    | some scalar => exact .put scalar .plain fun rest => by simp [literalFrom, unit, stands]
  | unit leading taken =>
    by_cases short : Text.byteSize (taken ++ [c]) < 4
    · exact .go (.unit leading (taken ++ [c])) fun rest => by
        simp only [literalFrom, short, if_true]
    cases denoted : hexValue? (taken ++ [c]) with
    | none =>
      exact .refuse _ fun rest => by simp only [literalFrom, short, denoted, if_false]; rfl
    | some unit =>
      by_cases trailing : isTrailing unit = true
      · cases leading with
        | none =>
          exact .refuse _ fun rest => by
            simp only [literalFrom, short, denoted, trailing, if_true, if_false]; rfl
        | some leading =>
          exact .put (pairedScalar leading unit) .plain fun rest => by
            simp only [literalFrom, short, denoted, trailing, if_true, if_false]
      · cases leading with
        | none =>
          by_cases high : isLeading unit = true
          · exact .go (.awaitBackslash unit) fun rest => by
              simp only [literalFrom, short, denoted, trailing, high, if_true, if_false]; rfl
          · exact .put (Char.ofNat unit) .plain fun rest => by
              simp only [literalFrom, short, denoted, trailing, high, if_false]; rfl
        | some leading =>
          exact .refuse _ fun rest => by
            simp only [literalFrom, short, denoted, trailing, if_false]; rfl
  | awaitBackslash leading =>
    by_cases backslash : c = '\\'
    · exact .go (.awaitUnit leading) fun rest => by simp [literalFrom, backslash]
    · exact .refuse _ fun rest => by simp [literalFrom, backslash, malformed]; rfl
  | awaitUnit leading =>
    by_cases unit : c = 'u'
    · exact .go (.unit (some leading) []) fun rest => by simp [literalFrom, unit]
    · exact .refuse _ fun rest => by simp [literalFrom, unit, malformed]; rfl

/-- What a decoder has taken it takes before any other text too. -/
theorem exists_of_literalFrom {state : LiteralState} {text content rest : Text}
    (read : literalFrom state text = .ok (content, rest)) :
    ∃ taken, text = taken ++ rest ∧
      ∀ other, literalFrom state (taken ++ other) = .ok (content, other) := by
  induction text generalizing state content with
  | nil => cases state <;> contradiction
  | cons c text ih =>
    cases literalStep state c with
    | refuse reason step =>
      rw [step] at read
      contradiction
    | stop step =>
      rw [step] at read
      cases read
      exact ⟨[c], rfl, step⟩
    | go next step =>
      rw [step] at read
      obtain ⟨taken, rfl, again⟩ := ih read
      exact ⟨c :: taken, rfl, fun other => (step _).trans (again other)⟩
    | put scalar next step =>
      rw [step] at read
      obtain ⟨later, readLater, rfl⟩ := exists_of_map_eq_ok read
      obtain ⟨taken, rfl, again⟩ := ih readLater
      refine ⟨c :: taken, rfl, fun other => ?_⟩
      rw [List.cons_append, step, again]
      rfl

end FormFill.Json
