import FormFill.Json.Reader
import FormFill.Json.Writer

/-! # Texts that are read as JSON values

The frame of an array or object may have blanks between any two of its parts. Whatever the reader of
the items or members is, the frame is read whole as soon as each item or member is read wherever a
value may end. What the compact writer puts out is such a frame, without blanks.
-/

namespace FormFill.Json

/-- The texts that may stand between two parts. -/
def IsBlank (text : Text) : Prop := ∀ c ∈ text, isSpace c

instance : DecidablePred IsBlank := List.decidableBAll fun c => isSpace c = true

theorem isBlank_nil : IsBlank [] := List.forall_mem_nil _

theorem skipSpace_append {before : Text} (blank : IsBlank before) (rest : Text) :
    skipSpace (before ++ rest) = skipSpace rest :=
  List.dropWhile_append_of_pos blank

theorem skipSpace_blank {text : Text} (blank : IsBlank text) : skipSpace text = [] := by
  rw [← List.append_nil text, skipSpace_append blank]
  rfl

theorem skipSpace_cons {c : Char} (solid : isSpace c = false) (rest : Text) :
    skipSpace (c :: rest) = c :: rest :=
  List.dropWhile_cons_of_neg (by simp [solid])

theorem skipSpace_append_cons {before : Text} (blank : IsBlank before) {c : Char}
    (solid : isSpace c = false) (rest : Text) : skipSpace (before ++ c :: rest) = c :: rest :=
  (skipSpace_append blank _).trans (skipSpace_cons solid rest)

theorem skipSpace_front {before : Text} (blank : IsBlank before) {c : Char}
    (solid : isSpace c = false) (text rest : Text) :
    skipSpace (before ++ c :: text ++ rest) = c :: (text ++ rest) := by
  rw [List.append_assoc, List.cons_append, skipSpace_append_cons blank solid]

/-- What may follow a value: a blank, a comma, a closing bracket or the end of the text. -/
def EndsValue (rest : Text) : Prop := ∀ c ∈ rest.head?, isSpace c ∨ c = ',' ∨ c = ']' ∨ c = '}'

theorem endsValue_append_cons {after : Text} (blank : IsBlank after) {c : Char}
    (ends : c = ',' ∨ c = ']' ∨ c = '}') (rest : Text) : EndsValue (after ++ c :: rest) := by
  cases after with
  | nil => simp [EndsValue, ends]
  | cons first after => simp [EndsValue, blank first List.mem_cons_self]

/-- A reader takes a text for a value wherever a value may end. -/
def Accepts {α : Type} (reader : Reader α) (text : Text) (value : α) : Prop :=
  ∀ rest, EndsValue rest → reader (text ++ rest) = .ok (value, rest)

/-- A text that a reader takes for a value and that can be an item of an array: it begins with
neither a blank nor the closing bracket. -/
structure Spells {α : Type} (reader : Reader α) (text : Text) (value : α) : Prop where
  opens : ∃ c rest, text = c :: rest ∧ isSpace c = false ∧ c ≠ ']'
  accepted : Accepts reader text value

/-- A reading in two steps succeeds only when both steps do. -/
theorem exists_of_bind_eq_ok {ε α β : Type} {first : Except ε α} {next : α → Except ε β} {value : β}
    (accepted : first >>= next = .ok value) :
    ∃ item, first = .ok item ∧ next item = .ok value := by
  cases first with
  | error reason => contradiction
  | ok item => exact ⟨item, rfl, accepted⟩

section Arrays

variable {α : Type} {item : Reader α} {text : Text} {values : List α}

/-- The texts of the items of an array that has some, up to its closing bracket. -/
inductive ItemsText (item : Reader α) : Text → List α → Prop
  | last {text after : Text} {value : α} (spelled : Spells item text value)
      (blankAfter : IsBlank after) : ItemsText item (text ++ after ++ [']']) [value]
  | more {text after before others : Text} {value : α} {values : List α}
      (spelled : Spells item text value) (blankAfter : IsBlank after) (blankBefore : IsBlank before)
      (further : ItemsText item others values) :
      ItemsText item (text ++ after ++ ',' :: before ++ others) (value :: values)

/-- The texts of an array after its opening bracket. -/
inductive ArrayText (item : Reader α) : Text → List α → Prop
  | empty {before : Text} (blankBefore : IsBlank before) : ArrayText item (before ++ [']']) []
  | filled {before text : Text} {values : List α} (blankBefore : IsBlank before)
      (further : ItemsText item text values) : ArrayText item (before ++ text) values

/-- Items begin where their first one does. -/
theorem ItemsText.opens (spelled : ItemsText item text values) :
    ∃ c rest, text = c :: rest ∧ isSpace c = false ∧ c ≠ ']' := by
  cases spelled with
  | last spelled _ | more spelled _ _ _ =>
    obtain ⟨c, rest, rfl, opens⟩ := spelled.opens
    exact ⟨c, _, rfl, opens⟩

/-- Items are read whole under any bound that the length of their text keeps to. -/
theorem ItemsText.items_eq (rule : CommaRule) (spelled : ItemsText item text values) (rest : Text) :
    ∀ bound, text.length ≤ bound → items rule item bound (text ++ rest) = .ok (values, rest) := by
  induction spelled with
  | @last text after value spelled blankAfter =>
    intro bound short
    cases bound with
    | zero => simp at short
    | succ bound =>
      have first := spelled.accepted (after ++ ']' :: rest)
        (endsValue_append_cons blankAfter (by simp) rest)
      have space : skipSpace (after ++ ']' :: rest) = ']' :: rest :=
        skipSpace_append_cons blankAfter rfl _
      simp [items, first, space, bind, Except.bind, pure, Except.pure]
  | @more text after before others value values spelled blankAfter blankBefore further ih =>
    intro bound short
    cases bound with
    | zero => simp at short
    | succ bound =>
      have first := spelled.accepted (after ++ ',' :: (before ++ (others ++ rest)))
        (endsValue_append_cons blankAfter (by simp) _)
      have space : skipSpace (after ++ ',' :: (before ++ (others ++ rest))) =
          ',' :: (before ++ (others ++ rest)) :=
        skipSpace_append_cons blankAfter rfl _
      have next := ih bound (by simp at short; omega)
      obtain ⟨c, tail, rfl, solid, notClosed⟩ := further.opens
      have later : skipSpace (before ++ (c :: tail ++ rest)) = c :: (tail ++ rest) :=
        skipSpace_append_cons blankBefore solid _
      simp only [List.cons_append] at first space later next
      simp [items, first, space, later, next, notClosed, bind, Except.bind, pure, Except.pure]

/-- An array is read whole, whatever follows it. -/
theorem ArrayText.arrayBody_eq (rule : CommaRule) (spelled : ArrayText item text values)
    (rest : Text) : arrayBody rule item (text ++ rest) = .ok (values, rest) := by
  cases spelled with
  | @empty before blankBefore =>
    have space : skipSpace (before ++ ']' :: rest) = ']' :: rest :=
      skipSpace_append_cons blankBefore rfl _
    simp [arrayBody, space]
  | @filled before text values blankBefore further =>
    obtain ⟨c, tail, rfl, solid, notClosed⟩ := further.opens
    have space : skipSpace (before ++ c :: (tail ++ rest)) = c :: (tail ++ rest) :=
      skipSpace_append_cons blankBefore solid _
    have whole : items rule item (tail.length + rest.length + 1 + 1) (c :: (tail ++ rest)) =
        .ok (values, rest) :=
      further.items_eq rule rest _ (by simp; omega)
    simp [arrayBody, space, whole, notClosed]

end Arrays

section Objects

variable {κ σ : Type} {key : Reader κ} {member : σ → κ → Reader σ} {start final : σ} {text : Text}

/-- The texts of the members of an object that has some, after the opening quote of the first and up
to the closing brace, with the states before and after them. -/
inductive MembersText (key : Reader κ) (member : σ → κ → Reader σ) : σ → Text → σ → Prop
  | last {opened text after : Text} {name : κ} {state final : σ}
      (named : ∀ rest, key (opened ++ rest) = .ok (name, rest))
      (accepted : Accepts (member state name) text final) (blankAfter : IsBlank after) :
      MembersText key member state (opened ++ text ++ after ++ ['}']) final
  | more {opened text after before others : Text} {name : κ} {state next final : σ}
      (named : ∀ rest, key (opened ++ rest) = .ok (name, rest))
      (accepted : Accepts (member state name) text next) (blankAfter : IsBlank after)
      (blankBefore : IsBlank before) (further : MembersText key member next others final) :
      MembersText key member state (opened ++ text ++ after ++ ',' :: before ++ '"' :: others) final

/-- The texts of an object after its opening brace, with the states before and after it. -/
inductive ObjectText (key : Reader κ) (member : σ → κ → Reader σ) : σ → Text → σ → Prop
  | empty {before : Text} {state : σ} (blankBefore : IsBlank before) :
      ObjectText key member state (before ++ ['}']) state
  | filled {before text : Text} {state final : σ} (blankBefore : IsBlank before)
      (further : MembersText key member state text final) :
      ObjectText key member state (before ++ '"' :: text) final

/-- Members are read whole under any bound that the length of their text keeps to. -/
theorem MembersText.members_eq (rule : CommaRule) (spelled : MembersText key member start text final)
    (rest : Text) : ∀ bound, text.length ≤ bound →
      members rule key member bound start (text ++ rest) = .ok (final, rest) := by
  induction spelled with
  | @last opened text after name state final named accepted blankAfter =>
    intro bound short
    cases bound with
    | zero => simp at short
    | succ bound =>
      have first := accepted (after ++ '}' :: rest)
        (endsValue_append_cons blankAfter (by simp) rest)
      have space : skipSpace (after ++ '}' :: rest) = '}' :: rest :=
        skipSpace_append_cons blankAfter rfl _
      simp [members, named, first, space, bind, Except.bind, pure, Except.pure]
  | @more opened text after before others name state next final named accepted blankAfter blankBefore
      further ih =>
    intro bound short
    cases bound with
    | zero => simp at short
    | succ bound =>
      have first := accepted (after ++ ',' :: (before ++ '"' :: (others ++ rest)))
        (endsValue_append_cons blankAfter (by simp) _)
      have space : skipSpace (after ++ ',' :: (before ++ '"' :: (others ++ rest))) =
          ',' :: (before ++ '"' :: (others ++ rest)) :=
        skipSpace_append_cons blankAfter rfl _
      have later : skipSpace (before ++ '"' :: (others ++ rest)) = '"' :: (others ++ rest) :=
        skipSpace_append_cons blankBefore rfl _
      have next := ih bound (by simp at short; omega)
      simp [members, named, first, space, later, next, bind, Except.bind]

/-- An object is read whole, whatever follows it. -/
theorem ObjectText.objectBody_eq (rule : CommaRule) (spelled : ObjectText key member start text final)
    (rest : Text) : objectBody rule key member start (text ++ rest) = .ok (final, rest) := by
  cases spelled with
  | @empty before _ blankBefore =>
    have space : skipSpace (before ++ '}' :: rest) = '}' :: rest :=
      skipSpace_append_cons blankBefore rfl _
    simp [objectBody, space]
  | @filled before text _ _ blankBefore further =>
    have space : skipSpace (before ++ '"' :: (text ++ rest)) = '"' :: (text ++ rest) :=
      skipSpace_append_cons blankBefore rfl _
    have whole : members rule key member (text.length + rest.length + 1) start (text ++ rest) =
        .ok (final, rest) :=
      further.members_eq rule rest _ (by omega)
    simp [objectBody, space, whole]

end Objects

section Compact

variable {α σ : Type} {reader : Reader α} {member : σ → Text → Reader σ}

theorem itemsText_compact (form : α → Json) (first : α) (others : List α)
    (spelled : ∀ value ∈ first :: others, Spells reader (form value).compact value) :
    ItemsText reader ((form first).compact ++ (compactItems (others.map form) ++ [']']))
      (first :: others) := by
  induction others generalizing first with
  | nil =>
    simpa [compactItems] using ItemsText.last (spelled first List.mem_cons_self) isBlank_nil
  | cons next others ih =>
    obtain ⟨spelledFirst, spelledOthers⟩ := List.forall_mem_cons.mp spelled
    simpa [compactItems] using
      ItemsText.more spelledFirst isBlank_nil isBlank_nil (ih next spelledOthers)

/-- The compact form of an array is an array of the values whose forms its items are. -/
theorem exists_arrayText_compact (form : α → Json) {values : List α}
    (spelled : ∀ value ∈ values, Spells reader (form value).compact value) :
    ∃ body, (Json.array (values.map form)).compact = '[' :: body ∧
      ArrayText reader body values := by
  cases values with
  | nil => exact ⟨[']'], rfl, .empty isBlank_nil⟩
  | cons first others =>
    have further := itemsText_compact form first others spelled
    exact ⟨_, by simp [compact], .filled isBlank_nil further⟩

/-- The states that the compact forms of members lead through. -/
inductive Steps (member : σ → Text → Reader σ) : σ → List (Text × Json) → σ → Prop
  | done {state : σ} : Steps member state [] state
  | step {state next final : σ} {name : Text} {item : Json} {others : List (Text × Json)}
      (accepted : Accepts (member state name) (':' :: item.compact) next)
      (further : Steps member next others final) : Steps member state ((name, item) :: others) final

theorem Steps.membersText {others : List (Text × Json)} {next final : σ}
    (steps : Steps member next others final) {name : Text} {item : Json} {state : σ}
    (accepted : Accepts (member state name) (':' :: item.compact) next) :
    MembersText readLiteral member state
      (name.flatMap escape ++ '"' :: ':' :: (item.compact ++ (compactMembers others ++ ['}'])))
      final := by
  have opened : ∀ name rest, readLiteral (name.flatMap escape ++ ['"'] ++ rest) = .ok (name, rest) :=
    fun name rest => by simpa using readLiteral_writeLiteral name rest
  induction steps generalizing name item state with
  | done =>
    simpa [compactMembers] using MembersText.last (opened name) accepted isBlank_nil
  | step acceptedNext further ih =>
    simpa [compactMembers, writeLiteral] using
      MembersText.more (opened name) accepted isBlank_nil isBlank_nil (ih acceptedNext)

/-- The compact form of an object leads from the state before its members to the one after. -/
theorem Steps.exists_objectText {list : List (Text × Json)} {start final : σ}
    (steps : Steps member start list final) :
    ∃ body, (Json.object list).compact = '{' :: body ∧
      ObjectText readLiteral member start body final := by
  cases steps with
  | done => exact ⟨['}'], rfl, .empty isBlank_nil⟩
  | step accepted further =>
    exact ⟨_, by simp [compact, writeLiteral], .filled isBlank_nil (further.membersText accepted)⟩

end Compact

section Scalars

theorem readColon_append {before : Text} (blank : IsBlank before) (rest : Text) :
    readColon (before ++ ':' :: rest) = .ok ((), rest) := by
  have space : skipSpace (before ++ ':' :: rest) = ':' :: rest :=
    skipSpace_append_cons blank rfl rest
  simp only [readColon, space]

theorem readToken_writeLiteral (content rest : Text) :
    readToken (writeLiteral content ++ rest) = .ok (.string content, rest) := by
  have decoded := readLiteral_writeLiteral content rest
  have solid : skipSpace ('"' :: (content.flatMap escape ++ '"' :: rest)) =
      '"' :: (content.flatMap escape ++ '"' :: rest) := skipSpace_cons rfl _
  simp [readToken, writeLiteral, solid, decoded, Except.map]

theorem readToken_writeBoolean (value : Bool) (rest : Text) :
    readToken (writeBoolean value ++ rest) = .ok (.boolean value, rest) := by
  cases value <;> rfl

theorem readString_writeLiteral (content rest : Text) :
    readString (writeLiteral content ++ rest) = .ok (content, rest) := by
  simp [readString, readToken_writeLiteral, bind, Except.bind, pure, Except.pure]

theorem readOptionalString_writeLiteral (content rest : Text) :
    readOptionalString (writeLiteral content ++ rest) = .ok (some content, rest) := by
  simp [readOptionalString, readToken_writeLiteral, bind, Except.bind, pure, Except.pure]

theorem readValue_writeLiteral (depth : Nat) (content rest : Text) :
    readValue depth (writeLiteral content ++ rest) = .ok (.string content, rest) := by
  simp [readValue, readToken_writeLiteral, bind, Except.bind, pure, Except.pure]

theorem readValue_writeBoolean (depth : Nat) (value : Bool) (rest : Text) :
    readValue depth (writeBoolean value ++ rest) = .ok (.boolean value, rest) := by
  simp [readValue, readToken_writeBoolean, bind, Except.bind, pure, Except.pure]

end Scalars

end FormFill.Json
