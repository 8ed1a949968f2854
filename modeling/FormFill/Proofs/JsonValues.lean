import FormFill.Proofs.FieldValueReads

/-! # Texts and the values that they denote

A text denotes a JSON value when its scalars spell those of the value and its frames are rows of
texts that denote the inner values. A reader that may enter as many nested frames as there are takes
the text for that value. Every value that nests no deeper than a limit has a text that denotes it
within the limit, if each of its numbers has one.
-/

namespace FormFill.Json

/-- The texts of scalars, with the scalars that they spell. A number must be in range. -/
inductive ScalarDenotes : Text → Json → Prop
  | null : ScalarDenotes "null".toList .null
  | boolean (value : Bool) : ScalarDenotes (writeBoolean value) (.boolean value)
  | number {text : Text} {parts : NumberLiteral} {value : Numeral} (number : NumberText text parts)
      (inRange : parts.value = .ok value) : ScalarDenotes text (.number value)
  | string {spelled content : Text} (literal : LiteralText spelled content) :
      ScalarDenotes ('"' :: (spelled ++ ['"'])) (.string content)

/-- The texts of members of an object, with their keys and values. -/
inductive MemberDenotes (Inner : Text → Json → Prop) : Text → Text × Json → Prop
  | member {spelled name after before text : Text} {value : Json}
      (literal : LiteralText spelled name) (blankAfter : IsBlank after)
      (blankBefore : IsBlank before) (inner : Inner text value) :
      MemberDenotes Inner ('"' :: (spelled ++ '"' :: (after ++ ':' :: (before ++ text))))
        (name, value)

/-- The texts of scalars, and of arrays and objects of inner values. -/
inductive LayerDenotes (Inner : Text → Json → Prop) : Text → Json → Prop
  | scalar {text : Text} {value : Json} (scalar : ScalarDenotes text value) :
      LayerDenotes Inner text value
  | array {text : Text} {values : List Json} (body : Body ']' Inner text values) :
      LayerDenotes Inner ('[' :: text) (.array values)
  | object {text : Text} {members : List (Text × Json)}
      (body : Body '}' (MemberDenotes Inner) text members) :
      LayerDenotes Inner ('{' :: text) (.object members)

/-- The texts of values that nest at most `depth` arrays and objects, with these values. -/
def Denotes : Nat → Text → Json → Prop
  | 0 => ScalarDenotes
  | depth + 1 => LayerDenotes (Denotes depth)

/-- The texts of a single object whose values nest at most `depth` further frames, with its members
in their order. -/
inductive ObjectDenotes (depth : Nat) : Text → List (Text × Json) → Prop
  | object {before text after : Text} {members : List (Text × Json)} (blankBefore : IsBlank before)
      (body : Body '}' (MemberDenotes (Denotes depth)) text members) (blankAfter : IsBlank after) :
      ObjectDenotes depth (before ++ '{' :: (text ++ after)) members

section Reading

variable {text : Text} {value : Json} {depth : Nat} {members : List (Text × Json)}

theorem ScalarDenotes.scalarText (denotes : ScalarDenotes text value) : ScalarText text := by
  cases denotes with
  | null => exact .null
  | boolean value => exact .boolean value
  | number number _ => exact .number number
  | string literal => exact .string literal.shape

theorem ScalarDenotes.exists_token (denotes : ScalarDenotes text value) :
    ∃ token, Token.scalar? token = some value ∧ Accepts readToken text token := by
  cases denotes with
  | null => exact ⟨.null, rfl, fun _ _ => rfl⟩
  | boolean value => exact ⟨.boolean value, rfl, fun rest _ => readToken_writeBoolean value rest⟩
  | string literal => exact ⟨.string _, rfl, fun rest _ => literal.readToken_eq rest⟩
  | number number inRange => exact ⟨.number _, rfl, number.accepts_readToken inRange⟩

theorem ScalarDenotes.spells (denotes : ScalarDenotes text value) (depth : Nat) :
    Spells (readValue depth) text value := by
  have layer : Layer (fun _ => False) text := .scalar denotes.scalarText
  obtain ⟨token, scalar, accepted⟩ := denotes.exists_token
  exact ⟨layer.opens, fun rest ends => readValue_of_scalar scalar (accepted rest ends) depth⟩

/-- A member whose value is read is added to those before it. -/
theorem MemberDenotes.leads {member : Text × Json}
    (denotes : MemberDenotes (Accepts (readValue depth)) text member) (met : List (Text × Json)) :
    Leads readLiteral (readMember (readValue depth)) met text (met ++ [member]) := by
  cases denotes with
  | @member _ _ after before inner value literal blankAfter blankBefore accepted =>
    refine ⟨_, after ++ ':' :: (before ++ inner), _, by simp, literal.readLiteral_closed,
      fun rest ends => ?_⟩
    have read : readValue depth (before ++ (inner ++ rest)) = .ok (value, rest) :=
      (readValue_append blankBefore depth _).trans (accepted rest ends)
    simp [readMember, readColon_append blankAfter, read, bind, Except.bind, pure, Except.pure]

theorem Body.objectText_readMember
    (body : Body '}' (MemberDenotes (Accepts (readValue depth))) text members) :
    ObjectText readLiteral (readMember (readValue depth)) [] text members := by
  have object := body.objectText (fun _ _ member => member.leads) []
  rwa [List.foldl_append_eq_append, ← List.flatMap_def, List.flatMap_singleton',
    List.nil_append] at object

theorem MemberDenotes.mono {Inner Other : Text → Json → Prop} {member : Text × Json}
    (denotes : MemberDenotes Inner text member)
    (into : ∀ text value, Inner text value → Other text value) :
    MemberDenotes Other text member := by
  cases denotes with
  | member literal blankAfter blankBefore inner =>
    exact .member literal blankAfter blankBefore (into _ _ inner)

/-- A text is taken for the value that it denotes by a reader that may enter as many frames. -/
theorem Denotes.spells (denotes : Denotes depth text value) :
    Spells (readValue depth) text value := by
  induction depth generalizing text value with
  | zero => exact ScalarDenotes.spells denotes 0
  | succ depth ih =>
    cases denotes with
    | scalar scalar => exact scalar.spells (depth + 1)
    | @array text values body =>
      refine ⟨⟨'[', text, rfl, by decide⟩, fun rest _ => ?_⟩
      have items : Body ']' (fun part item => Spells (readValue depth) part (id item)) text
          values :=
        body.mono fun _ _ _ denotes => ih denotes
      have whole := items.arrayText.arrayBody_eq .reading rest
      have opened : readToken ('[' :: (text ++ rest)) = .ok (.openArray, text ++ rest) := rfl
      rw [List.map_id] at whole
      simp [readValue, opened, whole, bind, Except.bind, pure, Except.pure]
    | @object text members body =>
      refine ⟨⟨'{', text, rfl, by decide⟩, fun rest _ => ?_⟩
      have parts : Body '}' (MemberDenotes (Accepts (readValue depth))) text members :=
        body.mono fun _ _ _ member => member.mono fun _ _ denotes => (ih denotes).accepted
      have whole := parts.objectText_readMember.objectBody_eq .reading rest
      have opened : readToken ('{' :: (text ++ rest)) = .ok (.openObject, text ++ rest) := rfl
      simp [readValue, opened, whole, bind, Except.bind, pure, Except.pure]

/-- A single object within the limit is read as the map of its members. -/
theorem ObjectDenotes.readAll_eq (denotes : ObjectDenotes (depthLimit - 1) text members) :
    readAll FieldMap.readObject text = .ok (NameMap.ofList members) := by
  cases denotes with
  | @object before text after _ blankBefore body blankAfter =>
    have parts : Body '}' (MemberDenotes (Accepts (readValue (depthLimit - 1)))) text members :=
      body.mono fun _ _ _ member => member.mono fun _ _ denotes => denotes.spells.accepted
    have whole := parts.objectText_readMember.objectBody_eq .reading after
    have opened : readToken (before ++ '{' :: (text ++ after)) = .ok (.openObject, text ++ after) :=
      readToken_append blankBefore _
    simp [readAll, FieldMap.readObject, opened, whole, skipSpace_blank blankAfter, bind,
      Except.bind, pure, Except.pure]

end Reading

section Spelling

/-- Values that nest at most so many arrays and objects, with numbers that some text in range
denotes. -/
inductive Within : Nat → Json → Prop
  | null {depth : Nat} : Within depth .null
  | boolean {depth : Nat} (value : Bool) : Within depth (.boolean value)
  | number {depth : Nat} {text : Text} {parts : NumberLiteral} {value : Numeral}
      (number : NumberText text parts) (inRange : parts.value = .ok value) :
      Within depth (.number value)
  | string {depth : Nat} (content : Text) : Within depth (.string content)
  | array {depth : Nat} {values : List Json} (inner : ∀ value ∈ values, Within depth value) :
      Within (depth + 1) (.array values)
  | object {depth : Nat} {members : List (Text × Json)}
      (inner : ∀ member ∈ members, Within depth member.2) : Within (depth + 1) (.object members)

variable {ι : Type} {close : Char} {Part : Text → ι → Prop}

theorem exists_row (first : ι) (others : List ι)
    (spelled : ∀ item ∈ first :: others, ∃ text, Part text item) :
    ∃ text, Row close Part text (first :: others) := by
  induction others generalizing first with
  | nil =>
    obtain ⟨text, part⟩ := spelled first List.mem_cons_self
    exact ⟨_, .last part isBlank_nil⟩
  | cons next others ih =>
    obtain ⟨spelledFirst, spelledOthers⟩ := List.forall_mem_cons.mp spelled
    obtain ⟨text, part⟩ := spelledFirst
    obtain ⟨further, row⟩ := ih next spelledOthers
    exact ⟨_, .more part isBlank_nil isBlank_nil row⟩

/-- Items that all have texts are the items of some frame. -/
theorem exists_body {items : List ι} (spelled : ∀ item ∈ items, ∃ text, Part text item) :
    ∃ text, Body close Part text items := by
  cases items with
  | nil => exact ⟨_, .empty isBlank_nil⟩
  | cons first others =>
    obtain ⟨text, row⟩ := exists_row first others spelled
    exact ⟨_, .filled isBlank_nil row⟩

theorem exists_memberDenotes {Inner : Text → Json → Prop} {member : Text × Json}
    (spelled : ∃ text, Inner text member.2) : ∃ text, MemberDenotes Inner text member := by
  obtain ⟨text, inner⟩ := spelled
  exact ⟨_, .member (literalText_escape member.1) isBlank_nil isBlank_nil inner⟩

theorem ScalarDenotes.denotes {text : Text} {value : Json} (scalar : ScalarDenotes text value)
    (depth : Nat) : Denotes depth text value := by
  cases depth with
  | zero => exact scalar
  | succ depth => exact LayerDenotes.scalar scalar

/-- A value that keeps to a depth has a text that keeps to it. -/
theorem Within.exists_denotes {depth : Nat} {value : Json} (within : value.Within depth) :
    ∃ text, Denotes depth text value := by
  induction within with
  | null => exact ⟨_, ScalarDenotes.null.denotes _⟩
  | boolean value => exact ⟨_, (ScalarDenotes.boolean value).denotes _⟩
  | number number inRange => exact ⟨_, (ScalarDenotes.number number inRange).denotes _⟩
  | string content =>
    exact ⟨_, (ScalarDenotes.string (literalText_escape content)).denotes _⟩
  | array _ ih =>
    obtain ⟨text, body⟩ := exists_body ih
    exact ⟨_, LayerDenotes.array body⟩
  | object _ ih =>
    obtain ⟨text, body⟩ := exists_body fun member listed => exists_memberDenotes (ih member listed)
    exact ⟨_, LayerDenotes.object body⟩

/-- Members whose values keep to a depth are listed by a single object. -/
theorem exists_objectDenotes {depth : Nat} {members : List (Text × Json)}
    (within : ∀ member ∈ members, member.2.Within depth) :
    ∃ text, ObjectDenotes depth text members := by
  obtain ⟨text, body⟩ := exists_body fun member listed =>
    exists_memberDenotes (within member listed).exists_denotes
  exact ⟨_, .object isBlank_nil body isBlank_nil⟩

end Spelling

end FormFill.Json
