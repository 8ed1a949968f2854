import FormFill.Proofs.JsonGrammar

/-! # Readers that take values whole

A reader may refuse the text of a value, but what it takes of it is the whole: a scalar ends where
the text of it does, and a frame is left at its own closing bracket when every part of it is taken
whole. This needs no account of what the reader makes of the value. A frame that was read also shows
what was made of its parts: each item was taken, and the members led from state to state in their
order.
-/

namespace FormFill.Json

/-- A reader that takes a text for anything, where a value may end behind it, takes the whole of
it. -/
def Takes {α : Type} (reader : Reader α) (text : Text) : Prop :=
  ∀ rest value left, EndsValue rest → reader (text ++ rest) = .ok (value, left) → left = rest

section Arrays

variable {α : Type} {reader : Reader α} {rule : CommaRule} {text rest left : Text}
  {parts : List Text} {values : List α}

/-- An item that can only be taken whole. -/
structure TakenWhole (reader : Reader α) (text : Text) : Prop where
  opens : Opens text
  takes : Takes reader text

/-- A reader takes an item in front of some text. -/
def Taken (reader : Reader α) (item : Text) : Prop :=
  ∃ rest value left, reader (item ++ rest) = .ok (value, left)

/-- Items that can only be taken whole are left at the closing bracket, when each has been taken. -/
theorem Row.of_items (row : Row ']' (Item (TakenWhole reader)) text parts) {bound : Nat}
    (read : items rule reader bound (text ++ rest) = .ok (values, left)) :
    left = rest ∧ ∀ part ∈ parts, Taken reader part := by
  induction row generalizing bound values with
  | @last part after item isItem blankAfter =>
    obtain ⟨rfl, whole⟩ := isItem
    cases bound with
    | zero => contradiction
    | succ bound =>
      have split : item ++ (after ++ [']']) ++ rest = item ++ (after ++ ']' :: rest) := by simp
      have space : skipSpace (after ++ ']' :: rest) = ']' :: rest :=
        skipSpace_append_cons blankAfter rfl _
      rw [split] at read
      obtain ⟨⟨first, behind⟩, here, later⟩ := exists_of_bind_eq_ok read
      obtain rfl := whole.takes _ _ _ (endsValue_append_cons blankAfter (by simp) _) here
      simp only [space] at later
      cases later
      exact ⟨rfl, List.forall_mem_singleton.mpr ⟨_, _, _, here⟩⟩
  | @more part after before others item items isItem blankAfter blankBefore further ih =>
    obtain ⟨rfl, whole⟩ := isItem
    cases bound with
    | zero => contradiction
    | succ bound =>
      have split : item ++ (after ++ ',' :: (before ++ others)) ++ rest =
          item ++ (after ++ ',' :: (before ++ (others ++ rest))) := by simp
      have space : skipSpace (after ++ ',' :: (before ++ (others ++ rest))) =
          ',' :: (before ++ (others ++ rest)) :=
        skipSpace_append_cons blankAfter rfl _
      rw [split] at read
      obtain ⟨⟨first, behind⟩, here, later⟩ := exists_of_bind_eq_ok read
      obtain rfl := whole.takes _ _ _ (endsValue_append_cons blankAfter (by simp) _) here
      obtain ⟨c, tail, rfl, solid, notClosed⟩ := further.opens fun _ whole => whole.opens
      have next : skipSpace (before ++ (c :: tail ++ rest)) = c :: tail ++ rest :=
        skipSpace_append_cons blankBefore solid _
      simp only [space, next] at later
      split at later
      · next closed =>
        cases closed
        exact absurd rfl notClosed
      · obtain ⟨⟨more, final⟩, further, later⟩ := exists_of_bind_eq_ok later
        cases later
        obtain ⟨rfl, taken⟩ := ih further
        exact ⟨rfl, List.forall_mem_cons.mpr ⟨⟨_, _, _, here⟩, taken⟩⟩

/-- An array whose items can only be taken whole is taken whole, when each has been taken. -/
theorem Body.of_arrayBody (body : Body ']' (Item (TakenWhole reader)) text parts)
    (read : arrayBody rule reader (text ++ rest) = .ok (values, left)) :
    left = rest ∧ ∀ part ∈ parts, Taken reader part := by
  cases body with
  | @empty before blankBefore =>
    have space : skipSpace (before ++ [']'] ++ rest) = ']' :: rest :=
      skipSpace_front blankBefore rfl [] rest
    simp only [arrayBody, space] at read
    cases read
    exact ⟨rfl, List.forall_mem_nil _⟩
  | @filled before text parts blankBefore row =>
    obtain ⟨c, tail, rfl, solid, notClosed⟩ := row.opens fun _ whole => whole.opens
    have space : skipSpace (before ++ (c :: tail) ++ rest) = c :: tail ++ rest :=
      skipSpace_front blankBefore solid tail rest
    simp only [arrayBody, space] at read
    split at read
    · next closed =>
      cases closed
      exact absurd rfl notClosed
    · contradiction
    · exact row.of_items read

end Arrays

section Objects

variable {σ : Type} {member : σ → Text → Reader σ} {rule : CommaRule} {text rest left : Text}
  {names : List Text} {start final : σ}

/-- What stands behind a key can only be taken whole, under any key and in any state. -/
def TailTaken (member : σ → Text → Reader σ) (tail : Text) : Prop :=
  ∀ state name, Takes (member state name) tail

/-- The states that members under the spelled keys lead through. -/
inductive Run (member : σ → Text → Reader σ) : σ → List Text → σ → Prop
  | done {state : σ} : Run member state [] state
  | step {state next final : σ} {spelled name tail left : Text} {others : List Text}
      (named : readLiteral (spelled ++ '"' :: tail) = .ok (name, tail))
      (taken : member state name tail = .ok (next, left)) (further : Run member next others final) :
      Run member state (spelled :: others) final

/-- Members that can only be taken whole are left at the closing brace, after a run through them. -/
theorem Row.of_members (row : Row '}' (MemberText (TailTaken member)) text names) :
    ∃ opened, text = '"' :: opened ∧ ∀ bound start,
      members rule readLiteral member bound start (opened ++ rest) = .ok (final, left) →
        left = rest ∧ Run member start names final := by
  induction row with
  | @last part after item isMember blankAfter =>
    cases isMember with
    | @member _ tail literal taken =>
      refine ⟨item ++ '"' :: (tail ++ (after ++ ['}'])), by simp, fun bound start read => ?_⟩
      cases bound with
      | zero => contradiction
      | succ bound =>
        have split : item ++ '"' :: (tail ++ (after ++ ['}'])) ++ rest =
            item ++ '"' :: (tail ++ (after ++ '}' :: rest)) := by simp
        have space : skipSpace (after ++ '}' :: rest) = '}' :: rest :=
          skipSpace_append_cons blankAfter rfl _
        rw [split] at read
        obtain ⟨⟨name, afterName⟩, named, read⟩ := exists_of_bind_eq_ok read
        obtain ⟨⟨state, behind⟩, here, later⟩ := exists_of_bind_eq_ok read
        obtain rfl := literal.rest_of_literalFrom (.inl rfl) named
        obtain rfl := taken _ _ _ _ _ (endsValue_append_cons blankAfter (by simp) _) here
        simp only [space] at later
        cases later
        exact ⟨rfl, .step named here .done⟩
  | @more part after before others item items isMember blankAfter blankBefore further ih =>
    obtain ⟨opened, rfl, ih⟩ := ih
    cases isMember with
    | @member _ tail literal taken =>
      refine ⟨item ++ '"' :: (tail ++ (after ++ ',' :: (before ++ '"' :: opened))), by simp,
        fun bound start read => ?_⟩
      cases bound with
      | zero => contradiction
      | succ bound =>
        have split : item ++ '"' :: (tail ++ (after ++ ',' :: (before ++ '"' :: opened))) ++ rest =
            item ++ '"' :: (tail ++ (after ++ ',' :: (before ++ '"' :: (opened ++ rest)))) := by
          simp
        have space : skipSpace (after ++ ',' :: (before ++ '"' :: (opened ++ rest))) =
            ',' :: (before ++ '"' :: (opened ++ rest)) :=
          skipSpace_append_cons blankAfter rfl _
        have next : skipSpace (before ++ '"' :: (opened ++ rest)) = '"' :: (opened ++ rest) :=
          skipSpace_append_cons blankBefore rfl _
        rw [split] at read
        obtain ⟨⟨name, afterName⟩, named, read⟩ := exists_of_bind_eq_ok read
        obtain ⟨⟨state, behind⟩, here, later⟩ := exists_of_bind_eq_ok read
        obtain rfl := literal.rest_of_literalFrom (.inl rfl) named
        obtain rfl := taken _ _ _ _ _ (endsValue_append_cons blankAfter (by simp) _) here
        simp only [space, next] at later
        obtain ⟨rfl, run⟩ := ih _ _ later
        exact ⟨rfl, .step named here run⟩

/-- An object whose members can only be taken whole is taken whole, after a run through them. -/
theorem Body.of_objectBody (body : Body '}' (MemberText (TailTaken member)) text names)
    (read : objectBody rule readLiteral member start (text ++ rest) = .ok (final, left)) :
    left = rest ∧ Run member start names final := by
  cases body with
  | @empty before blankBefore =>
    have space : skipSpace (before ++ ['}'] ++ rest) = '}' :: rest :=
      skipSpace_front blankBefore rfl [] rest
    simp only [objectBody, space] at read
    cases read
    exact ⟨rfl, .done⟩
  | @filled before text names blankBefore row =>
    obtain ⟨opened, rfl, whole⟩ := row.of_members
    have space : skipSpace (before ++ '"' :: opened ++ rest) = '"' :: (opened ++ rest) :=
      skipSpace_front blankBefore rfl opened rest
    simp only [objectBody, space] at read
    exact whole _ _ read

end Objects

section Tokens

variable {Inner : Text → Prop} {text rest left : Text} {token : Token}

/-- What the token at the front of a value is, and what it leaves of the value. -/
inductive Entry (Inner : Text → Prop) : Text → Token → Text → Prop
  | scalar {text : Text} {token : Token} (notArray : token ≠ .openArray)
      (notObject : token ≠ .openObject) : Entry Inner text token []
  | array {text : Text} {items : List Text} (body : Body ']' (Item Inner) text items) :
      Entry Inner ('[' :: text) .openArray text
  | object {text : Text} {names : List Text}
      (body : Body '}' (MemberText (ColonText Inner)) text names) :
      Entry Inner ('{' :: text) .openObject text

theorem readToken_append {before : Text} (blank : IsBlank before) (rest : Text) :
    readToken (before ++ rest) = readToken rest := by
  unfold readToken
  rw [skipSpace_append blank]

theorem readToken_number {c : Char} (begins : c = '-' ∨ Text.isDigit c = true) (rest : Text) :
    readToken (c :: rest) =
      (readNumber (c :: rest)).map fun (value, rest) => (.number value, rest) := by
  obtain ⟨solid, -, notNull, notTrue, notFalse, notQuote, notArray, notObject⟩ :=
    ne_of_beginsNumber begins
  simp [readToken, skipSpace_cons solid, notNull, notTrue, notFalse, notQuote, notArray, notObject,
    begins]

theorem readToken_quote (rest : Text) :
    readToken ('"' :: rest) =
      (readLiteral rest).map fun (content, rest) => (.string content, rest) := by
  rw [readToken, skipSpace_cons rfl]
  rfl

theorem ScalarText.of_readToken (scalar : ScalarText text) (ends : EndsValue rest)
    (read : readToken (text ++ rest) = .ok (token, left)) :
    token ≠ .openArray ∧ token ≠ .openObject ∧ left = rest := by
  cases scalar with
  | null =>
    have word : readToken ("null".toList ++ rest) = .ok (.null, rest) := rfl
    cases word.symm.trans read
    simp
  | boolean value =>
    rw [readToken_writeBoolean] at read
    cases read
    simp
  | @number text parts number =>
    have cut : numberLiteral (.unfinished .value) (text ++ rest) = .ok (parts, rest) :=
      number.numberLiteral_eq ends.endsNumber
    obtain ⟨c, more, rfl, begins⟩ := number.opens
    rw [List.cons_append, readToken_number begins, ← List.cons_append] at read
    obtain ⟨value, whole, rfl⟩ := exists_of_map_eq_ok read
    obtain ⟨⟨others, behind⟩, here, later⟩ := exists_of_bind_eq_ok whole
    obtain ⟨numeral, -, done⟩ := exists_of_bind_eq_ok later
    cases cut.symm.trans here
    cases done
    simp
  | @string spelled literal =>
    have split : '"' :: (spelled ++ ['"']) ++ rest = '"' :: (spelled ++ '"' :: rest) := by simp
    rw [split, readToken_quote] at read
    obtain ⟨content, decoded, rfl⟩ := exists_of_map_eq_ok read
    obtain rfl := literal.rest_of_literalFrom (.inl rfl) decoded
    simp

/-- The token at the front of a value ends a scalar, or opens a frame whose rest is left. -/
theorem Layer.entry (layer : Layer Inner text) (ends : EndsValue rest)
    (read : readToken (text ++ rest) = .ok (token, left)) :
    ∃ tail, Entry Inner text token tail ∧ left = tail ++ rest := by
  cases layer with
  | scalar scalar =>
    obtain ⟨notArray, notObject, rfl⟩ := scalar.of_readToken ends read
    exact ⟨[], .scalar notArray notObject, rfl⟩
  | array body =>
    cases read
    exact ⟨_, .array body, rfl⟩
  | object body =>
    cases read
    exact ⟨_, .object body, rfl⟩

end Tokens

section Values

theorem readValue_append {before : Text} (blank : IsBlank before) (depth : Nat) (rest : Text) :
    readValue depth (before ++ rest) = readValue depth rest := by
  unfold readValue
  rw [readToken_append blank]

theorem ColonText.tailTaken_readMember {depth : Nat} {text : Text}
    (tail : ColonText (Takes (readValue depth)) text) :
    TailTaken (readMember (readValue depth)) text := by
  intro before name rest value left ends read
  cases tail with
  | @colon after blank value blankAfter blankBefore takes =>
    have split : after ++ ':' :: (blank ++ value) ++ rest =
        after ++ ':' :: (blank ++ (value ++ rest)) := by simp
    rw [split] at read
    obtain ⟨⟨⟨⟩, behind⟩, colon, read⟩ := exists_of_bind_eq_ok read
    cases (readColon_append blankAfter _).symm.trans colon
    obtain ⟨⟨content, behind⟩, here, done⟩ := exists_of_bind_eq_ok read
    rw [readValue_append blankBefore] at here
    cases done
    exact takes _ _ _ ends here

/-- A value that is read is read whole, whatever limit there is to its depth. -/
theorem ValueText.takes_readValue {levels : Nat} {text : Text} (value : ValueText levels text) :
    ∀ depth, Takes (readValue depth) text := by
  induction levels generalizing text with
  | zero => contradiction
  | succ levels ih =>
    intro depth rest json left ends read
    unfold readValue at read
    obtain ⟨⟨token, behind⟩, opened, later⟩ := exists_of_bind_eq_ok read
    obtain ⟨tail, entry, rfl⟩ := Layer.entry value ends opened
    cases entry with
    | scalar notArray notObject =>
      cases token with
      | null | boolean _ | number _ | string _ => cases later; rfl
      | openArray | openObject => contradiction
    | array body =>
      cases depth with
      | zero => contradiction
      | succ depth =>
        obtain ⟨⟨content, behind⟩, here, done⟩ := exists_of_bind_eq_ok later
        have whole : Body ']' (Item (TakenWhole (readValue depth))) tail _ :=
          body.mono fun _ _ _ isItem => ⟨isItem.1, isItem.2.opens, ih isItem.2 depth⟩
        cases done
        exact (Body.of_arrayBody whole here).1
    | object body =>
      cases depth with
      | zero => contradiction
      | succ depth =>
        obtain ⟨⟨content, behind⟩, here, done⟩ := exists_of_bind_eq_ok later
        have whole : Body '}' (MemberText (TailTaken (readMember (readValue depth)))) tail _ :=
          body.mono fun _ _ _ isMember => isMember.mono fun _ _ tail =>
            (tail.mono fun _ _ inner => ih inner depth).tailTaken_readMember
        cases done
        exact (Body.of_objectBody whole here).1

end Values

end FormFill.Json
