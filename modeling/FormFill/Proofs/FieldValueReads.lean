import FormFill.FieldMap.Reader
import FormFill.Proofs.SpecPresentation

/-! # Field values read alone and in place

A field value is read from a text of its own, from a member of a field map or from a member of a
specification. Its text is a scalar with blanks around it, and a scalar that has been read once is
read as the same wherever a value may end, so all three readings agree.
-/

namespace FormFill

open Json

namespace Json

variable {text rest : Text} {token : Token}

theorem exists_of_skipSpace (text : Text) :
    ∃ before, IsBlank before ∧ text = before ++ skipSpace text := by
  refine ⟨text.takeWhile isSpace, List.all_eq_true.mp List.all_takeWhile, ?_⟩
  exact List.takeWhile_append_dropWhile.symm

theorem isBlank_of_skipSpace (ended : skipSpace text = []) : IsBlank text := by
  obtain ⟨before, blank, whole⟩ := exists_of_skipSpace text
  rw [whole, ended, List.append_nil]
  exact blank

theorem append_of_readWord {letters : Text} (read : readWord letters text = .ok rest) :
    text = letters ++ rest := by
  induction letters generalizing text with
  | nil =>
    cases read
    rfl
  | cons letter letters ih =>
    cases text with
    | nil => contradiction
    | cons c text =>
      simp only [readWord] at read
      split at read
      · next same => rw [same, ih read, List.cons_append]
      · contradiction

theorem of_readWordAs {α : Type} {letters : Text} {value other : α}
    (read : readWordAs letters value text = .ok (other, rest)) :
    other = value ∧ text = letters ++ rest := by
  unfold readWordAs at read
  cases word : readWord letters text with
  | error reason =>
    rw [word] at read
    contradiction
  | ok behind =>
    rw [word] at read
    cases read
    exact ⟨rfl, append_of_readWord word⟩

/-- The value of a token that is no bracket. -/
def Token.scalar? : Token → Option Json
  | .null => some .null
  | .boolean value => some (.boolean value)
  | .number value => some (.number value)
  | .string content => some (.string content)
  | .openArray | .openObject => none

/-- A number in range is read wherever a value may end. -/
theorem NumberText.accepts_readToken {parts : NumberLiteral} {value : Numeral}
    (number : NumberText text parts) (inRange : parts.value = .ok value) :
    Accepts readToken text (.number value) := by
  intro rest ends
  have cut : numberLiteral (.unfinished .value) (text ++ rest) = .ok (parts, rest) :=
    number.numberLiteral_eq ends.endsNumber
  obtain ⟨first, more, rfl, begins⟩ := number.opens
  rw [List.cons_append] at cut ⊢
  rw [readToken_number begins]
  simp only [readNumber, cut, inRange, bind, Except.bind, pure, Except.pure, Except.map]

/-- A scalar that has been read is read again wherever a value may end. -/
theorem exists_of_readToken {json : Json} (scalar : token.scalar? = some json)
    (read : readToken text = .ok (token, rest)) :
    ∃ core, text = core ++ rest ∧ Accepts readToken core token := by
  obtain ⟨before, blank, whole⟩ := exists_of_skipSpace text
  -- The blanks in front belong to the scalar: they are passed over again.
  suffices front : ∃ core, skipSpace text = core ++ rest ∧ Accepts readToken core token by
    obtain ⟨core, same, accepted⟩ := front
    refine ⟨before ++ core, by rw [whole, same, List.append_assoc], fun other ends => ?_⟩
    rw [List.append_assoc, readToken_append blank]
    exact accepted other ends
  unfold readToken at read
  split at read
  · contradiction
  · next c tail front =>
    rw [front]
    split at read
    · next same =>
      obtain ⟨rfl, rfl⟩ := of_readWordAs read
      exact ⟨['n', 'u', 'l', 'l'], by rw [same]; rfl, fun other _ => rfl⟩
    split at read
    · next same =>
      obtain ⟨rfl, rfl⟩ := of_readWordAs read
      exact ⟨['t', 'r', 'u', 'e'], by rw [same]; rfl, fun other _ => rfl⟩
    split at read
    · next same =>
      obtain ⟨rfl, rfl⟩ := of_readWordAs read
      exact ⟨['f', 'a', 'l', 's', 'e'], by rw [same]; rfl, fun other _ => rfl⟩
    split at read
    · next same =>
      obtain ⟨content, decoded, rfl⟩ := exists_of_map_eq_ok read
      obtain ⟨taken, rfl, again⟩ := exists_of_literalFrom decoded
      refine ⟨'"' :: taken, by rw [same]; rfl, fun other _ => ?_⟩
      have decoded : readLiteral (taken ++ other) = .ok (content, other) := again other
      rw [List.cons_append, readToken_quote, decoded]
      rfl
    split at read
    · cases read
      contradiction
    split at read
    · cases read
      contradiction
    split at read
    · next begins =>
      obtain ⟨numeral, number, rfl⟩ := exists_of_map_eq_ok read
      obtain ⟨⟨parts, behind⟩, cut, later⟩ := exists_of_bind_eq_ok number
      obtain ⟨value, evaluated, done⟩ := exists_of_bind_eq_ok later
      cases done
      obtain ⟨core, same, isNumber⟩ := exists_of_numberLiteral cut
      exact ⟨core, same, isNumber.accepts_readToken evaluated⟩
    · contradiction

theorem readValue_of_scalar {json : Json} (scalar : token.scalar? = some json)
    (read : readToken text = .ok (token, rest)) (depth : Nat) :
    readValue depth text = .ok (json, rest) := by
  unfold readValue
  rw [read]
  cases token <;> cases scalar <;> rfl

/-- What is read as a field value is a scalar. -/
theorem exists_scalar_of_readValue {depth : Nat} {json : Json} {value : FieldValue}
    (holds : FieldValue.ofJson? json = some value)
    (read : readValue depth text = .ok (json, rest)) :
    ∃ token, Token.scalar? token = some json ∧ readToken text = .ok (token, rest) := by
  unfold readValue at read
  obtain ⟨⟨token, behind⟩, opened, later⟩ := exists_of_bind_eq_ok read
  cases token with
  | null | boolean _ | number _ | string _ =>
    cases later
    exact ⟨_, rfl, opened⟩
  | openArray =>
    cases depth with
    | zero => contradiction
    | succ depth =>
      obtain ⟨⟨content, left⟩, -, done⟩ := exists_of_bind_eq_ok later
      cases done
      contradiction
  | openObject =>
    cases depth with
    | zero => contradiction
    | succ depth =>
      obtain ⟨⟨content, left⟩, -, done⟩ := exists_of_bind_eq_ok later
      cases done
      contradiction

end Json

namespace FieldValue

variable {text : Text} {value : FieldValue}

/-- A text is read as a JSON value that holds a field value, at any depth and wherever a value may
end. -/
structure Holds (text : Text) (json : Json) (value : FieldValue) : Prop where
  held : ofJson? json = some value
  accepted : ∀ depth, Accepts (readValue depth) text json

/-- A text that is read as a field value holds it, but for blanks behind it. -/
theorem exists_of_read (read : FieldValue.read text = .ok value) :
    ∃ core after json, text = core ++ after ∧ IsBlank after ∧ Holds core json value := by
  obtain ⟨⟨held, rest⟩, inner, ended⟩ := exists_of_bind_eq_ok read
  obtain ⟨⟨json, behind⟩, whole, later⟩ := exists_of_bind_eq_ok inner
  dsimp only at later
  split at later
  · next holds =>
    cases later
    dsimp only at ended
    split at ended
    · next nothing =>
      cases ended
      obtain ⟨token, scalar, opened⟩ := exists_scalar_of_readValue holds whole
      obtain ⟨core, rfl, accepted⟩ := exists_of_readToken scalar opened
      have again : ∀ depth, Accepts (readValue depth) core json := fun depth rest ends =>
        readValue_of_scalar scalar (accepted rest ends) depth
      exact ⟨core, _, json, rfl, isBlank_of_skipSpace nothing, holds, again⟩
    · contradiction
  · contradiction

theorem fieldValue_of_ofJson? {json : Json} (holds : ofJson? json = some value) (name : Text) :
    FieldMap.fieldValue name json = .ok value := by
  cases json <;> cases holds <;> rfl

theorem Holds.accepts_readOptionalFieldValue {json : Json} (holds : Holds text json value)
    (depth : Nat) : Accepts (readOptionalFieldValue depth) text (some value) := by
  intro rest ends
  obtain ⟨held, accepted⟩ := holds
  have read := accepted depth rest ends
  cases json <;> cases held <;>
    simp only [readOptionalFieldValue, read, ofJson?, bind, Except.bind, pure, Except.pure]

/-- A text that holds a field value is read as the one member of a field map. -/
theorem Holds.read_member {core after spelled name : Text} {json : Json}
    (holds : Holds core json value) (blankAfter : IsBlank after)
    (literal : LiteralText spelled name) :
    FieldMap.read ('{' :: '"' :: (spelled ++ '"' :: ':' :: (core ++ (after ++ ['}'])))) =
      .ok (.ofList [(name, value)]) := by
  have member : Accepts (readMember (readValue (depthLimit - 1)) [] name) (':' :: core)
      [(name, json)] := by
    intro rest ends
    have colon : readColon (':' :: (core ++ rest)) = .ok ((), core ++ rest) :=
      readColon_append isBlank_nil _
    simp [readMember, colon, holds.accepted _ rest ends, bind, Except.bind, pure, Except.pure]
  have object :=
    ObjectText.filled isBlank_nil (.last literal.readLiteral_closed member blankAfter)
  have whole : objectBody .reading readLiteral (readMember (readValue (depthLimit - 1))) []
      ('"' :: (spelled ++ '"' :: ':' :: (core ++ (after ++ ['}'])))) =
        .ok ([(name, json)], []) := by
    simpa using object.objectBody_eq .reading []
  have opened : ∀ rest, readToken ('{' :: rest) = .ok (.openObject, rest) := fun rest => rfl
  have single : (NameMap.ofList [(name, json)]).entries = [(name, json)] := rfl
  simp [FieldMap.read, readAll, FieldMap.readObject, opened, whole, skipSpace, InputError.ofJson,
    single, FieldMap.fieldValues, fieldValue_of_ofJson? holds.held, bind, Except.bind, pure,
    Except.pure]

/-- A text that holds a field value is read as the value of a specification. -/
theorem Holds.read_part {core after spelled name : Text} {json : Json}
    (holds : Holds core json value) (blankAfter : IsBlank after)
    (literal : LiteralText spelled name) :
    FieldSpec.read ("[\x7b\"id\":\"".toList ++ (spelled ++ ("\",\"value\":".toList ++ (core ++
      (after ++ ['}', ']']))))) = .ok [⟨name, some value, none, none, none⟩] := by
  let spec : FieldSpec := ⟨name, some value, none, none, none⟩
  have idKey : LiteralText SpecKey.id.name SpecKey.id.name := literalText_plain (by decide)
  have valueKey : LiteralText SpecKey.value.name SpecKey.value.name := literalText_plain (by decide)
  have isPart : FieldSpec.PartText (spec.part? .id) ('"' :: (spelled ++ ['"'])) := .text literal
  have id : Accepts (FieldSpec.readPart (.of spec []) .id) ('"' :: (spelled ++ ['"']))
      (.of spec [.id]) :=
    isPart.accepts_readPart []
  have part : Accepts (FieldSpec.readPart (.of spec [.id]) .value) core
      (.of spec [.value, .id]) := by
    intro rest ends
    have read := holds.accepts_readOptionalFieldValue FieldSpec.valueDepth rest ends
    simp [FieldSpec.readPart, read, PartialSpec.of, spec, bind, Except.bind, pure, Except.pure]
  have idMember := FieldSpec.accepts_readPartNamed_part rfl isBlank_nil isBlank_nil id
  have partMember := FieldSpec.accepts_readPartNamed_part rfl isBlank_nil isBlank_nil part
  have object : ObjectText readLiteral FieldSpec.readPartNamed (.of spec []) _
      (.of spec [.value, .id]) :=
    .filled isBlank_nil
      (.more idKey.readLiteral_closed idMember isBlank_nil isBlank_nil
        (.last valueKey.readLiteral_closed partMember blankAfter))
  have spelled : Spells FieldSpec.readOne _ spec :=
    FieldSpec.spells_readOne_of_objectText object fun key => by
      cases key <;> simp [FieldSpec.part?, spec]
  have whole := FieldSpec.read_of_spells isBlank_nil
    (.filled isBlank_nil (.last spelled isBlank_nil)) isBlank_nil
  have names : SpecKey.id.name = "id".toList ∧ SpecKey.value.name = "value".toList := ⟨rfl, rfl⟩
  simpa [names] using whole

/-- A text that is read as a field value is read as the same in a field map and in a list of
specifications, under any name and any spelling of the name. -/
theorem read_in_place (read : FieldValue.read text = .ok value) {spelled name : Text}
    (literal : LiteralText spelled name) :
    FieldMap.read ("\x7b\"".toList ++ spelled ++ "\":".toList ++ text ++ "\x7d".toList) =
        .ok (.ofList [(name, value)]) ∧
      FieldSpec.read ("[\x7b\"id\":\"".toList ++ spelled ++ "\",\"value\":".toList ++ text ++
        "\x7d]".toList) = .ok [⟨name, some value, none, none, none⟩] := by
  obtain ⟨core, after, json, rfl, blankAfter, holds⟩ := exists_of_read read
  constructor
  · simpa using holds.read_member blankAfter literal
  · simpa using holds.read_part blankAfter literal

/-- An integer that is no binary number is rounded alike in all three places, under a name with an
escape and with blanks around it. -/
theorem read_in_place_rounded :
    let text := "\t9007199254740993 ".toList
    let value : FieldValue := .number (Binary64.ofInt 9007199254740992)
    let spelled := "\\u00e9=".toList
    FieldValue.read text = .ok value ∧
      FieldMap.read ("\x7b\"".toList ++ spelled ++ "\":".toList ++ text ++ "\x7d".toList) =
          .ok (.ofList [("é=".toList, value)]) ∧
        FieldSpec.read ("[\x7b\"id\":\"".toList ++ spelled ++ "\",\"value\":".toList ++ text ++
          "\x7d]".toList) = .ok [⟨"é=".toList, some value, none, none, none⟩] := by
  intro text value spelled
  have held : (FieldValue.read text).toOption = some value := by decide +kernel
  have read : FieldValue.read text = .ok value := by
    cases result : FieldValue.read text with
    | error reason => rw [result] at held; contradiction
    | ok other => rw [result] at held; exact congrArg _ (Option.some.inj held)
  have literal : LiteralText spelled "é=".toList :=
    .unit (⟨rfl, rfl⟩ : IsUnit "00e9".toList 0xe9) rfl rfl (.plain (by decide) .nil)
  exact ⟨read, read_in_place read literal⟩

end FieldValue

end FormFill
