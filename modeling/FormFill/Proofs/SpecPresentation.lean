import FormFill.Proofs.SpecTaking

/-! # Presentations of specifications

A specification is presented by an object with its parts in any order, each under its key. A part
that is not given may be null, any value may stand under any other key, and any text may be escaped.
All presentations of a list are read as that list, and no list is read where a part is repeated.
-/

namespace FormFill

open Json

namespace Json

/-- The texts of a single array with items `Part`, with blanks around it. -/
inductive ListText {ι : Type} (Part : Text → ι → Prop) : Text → List ι → Prop
  | list {before text after : Text} {items : List ι} (blankBefore : IsBlank before)
      (body : Body ']' Part text items) (blankAfter : IsBlank after) :
      ListText Part (before ++ '[' :: (text ++ after)) items

theorem LiteralText.readToken_eq {spelled content : Text} (literal : LiteralText spelled content)
    (rest : Text) :
    readToken ('"' :: (spelled ++ ['"']) ++ rest) = .ok (.string content, rest) := by
  have decoded := literal.readLiteral_eq rest
  simp [readToken_quote, decoded, Except.map]

end Json

namespace FieldSpec

variable {spec : FieldSpec} {text : Text}

/-- The texts of a part: null where it is not given. A part that is a number has none. -/
inductive PartText : Option Json → Text → Prop
  | null : PartText none "null".toList
  | text {content spelled : Text} (literal : LiteralText spelled content) :
      PartText (some (.string content)) ('"' :: (spelled ++ ['"']))
  | boolean (value : Bool) : PartText (some (.boolean value)) (writeBoolean value)

/-- A member of a presentation, with the part that it presents: a part of the specification under
its key, or any value under a key that denotes none. Every key denotes a text; the value under
another key is only passed over and need not. -/
inductive PresentedMember (spec : FieldSpec) : Text → Option SpecKey → Prop
  | part {name tail : Text} {key : SpecKey} (spelled : LiteralText name key.name)
      (isTail : ColonText (PartText (spec.part? key)) tail) :
      PresentedMember spec ('"' :: (name ++ '"' :: tail)) (some key)
  | other {name content tail : Text} (spelled : LiteralText name content)
      (unknown : ∀ key : SpecKey, key.name ≠ content) (isTail : ColonText JsonText tail) :
      PresentedMember spec ('"' :: (name ++ '"' :: tail)) none

/-- The texts of objects that present a specification: no part twice, and every given part. -/
inductive Presented : Text → FieldSpec → Prop
  | object {text : Text} {spec : FieldSpec} {members : List (Option SpecKey)}
      (body : Body '}' (PresentedMember spec) text members)
      (distinct : (members.flatMap Option.toList).Nodup)
      (given : ∀ key, (spec.part? key).isSome → some key ∈ members) : Presented ('{' :: text) spec

theorem PartText.readString_eq {content : Text} (part : PartText (some (.string content)) text)
    (rest : Text) : readString (text ++ rest) = .ok (content, rest) := by
  cases part with
  | text literal =>
    simp only [readString, literal.readToken_eq, bind, Except.bind, pure, Except.pure]

theorem PartText.readOptionalString_eq {rule : Option Text}
    (part : PartText (rule.map .string) text) (rest : Text) :
    readOptionalString (text ++ rest) = .ok (rule, rest) := by
  cases rule with
  | none =>
    cases part
    rfl
  | some content =>
    cases part with
    | text literal =>
      simp only [readOptionalString, literal.readToken_eq, bind, Except.bind, pure, Except.pure]

theorem PartText.readOptionalFieldValue_eq {value : Option FieldValue}
    (part : PartText (value.map (·.toJson)) text) (depth : Nat) (rest : Text) :
    readOptionalFieldValue depth (text ++ rest) = .ok (value, rest) := by
  cases value with
  | none =>
    cases part
    have word : readValue depth ("null".toList ++ rest) = .ok (.null, rest) := by
      unfold readValue
      rfl
    simp only [readOptionalFieldValue, word, bind, Except.bind, pure, Except.pure]
  | some value =>
    cases value with
    | text content =>
      cases part with
      | @text _ spelled literal =>
        have read : readValue depth ('"' :: (spelled ++ ['"']) ++ rest) =
            .ok (.string content, rest) := by
          unfold readValue
          simp only [literal.readToken_eq, bind, Except.bind, pure, Except.pure]
        simp only [readOptionalFieldValue, read, FieldValue.ofJson?, bind, Except.bind, pure,
          Except.pure]
    | number number => cases part
    | boolean value =>
      cases part
      simp only [readOptionalFieldValue, readValue_writeBoolean, FieldValue.ofJson?, bind,
        Except.bind, pure, Except.pure]

/-- A part is read from any of its texts. -/
theorem PartText.accepts_readPart {key : SpecKey} (part : PartText (spec.part? key) text)
    (keys : List SpecKey) :
    Accepts (readPart (.of spec keys) key) text (.of spec (key :: keys)) := by
  intro rest _
  cases key with
  | id =>
    simp [readPart, part.readString_eq, PartialSpec.of, bind, Except.bind, pure, Except.pure]
  | value =>
    simp [readPart, part.readOptionalFieldValue_eq, PartialSpec.of, bind, Except.bind, pure,
      Except.pure]
  | dependsOn | generationRule | maxGeneration =>
    simp [readPart, part.readOptionalString_eq, PartialSpec.of, bind, Except.bind, pure,
      Except.pure]

/-- A part that has not been met is read from its member as soon as it is read from its text. -/
theorem accepts_readPartNamed_part {met next : PartialSpec} {key : SpecKey}
    {after before part : Text} (unmet : met.has key = false) (blankAfter : IsBlank after)
    (blankBefore : IsBlank before) (accepted : Accepts (readPart met key) part next) :
    Accepts (readPartNamed met key.name) (after ++ ':' :: (before ++ part)) next := by
  intro rest ends
  have read : readPart met key (before ++ (part ++ rest)) = .ok (next, rest) :=
    (readPart_append blankBefore met key _).trans (accepted rest ends)
  simp [readPartNamed, SpecKey.ofName?_name, unmet, readColon_append blankAfter, read, bind,
    Except.bind]

theorem PresentedMember.exists_accepts {member : Option SpecKey} {met : List SpecKey}
    (presented : PresentedMember spec text member) (fresh : ∀ key ∈ member.toList, key ∉ met) :
    ∃ name content tail, text = '"' :: (name ++ '"' :: tail) ∧ LiteralText name content ∧
      Accepts (readPartNamed (.of spec met) content) tail (.of spec (member.toList ++ met)) := by
  cases presented with
  | @part name _ key spelled isTail =>
    cases isTail with
    | colon blankAfter blankBefore isPart =>
      have unmet : (PartialSpec.of spec met).has key = false := by
        simpa [PartialSpec.has_of] using fresh key (List.mem_singleton_self key)
      exact ⟨name, key.name, _, rfl, spelled,
        accepts_readPartNamed_part unmet blankAfter blankBefore (isPart.accepts_readPart met)⟩
  | @other name content _ spelled unknown isTail =>
    refine ⟨name, content, _, rfl, spelled, fun rest ends => ?_⟩
    cases isTail with
    | @colon after before value blankAfter blankBefore isValue =>
      have none : SpecKey.ofName? content = none := by
        simpa [SpecKey.ofName?] using fun key _ => unknown key
      have skipped : skipValue (before ++ (value ++ rest)) = .ok ((), rest) := by
        simpa using accepts_skipValue blankBefore isValue rest ends
      simp [readPartNamed, none, readColon_append blankAfter, skipped, bind, Except.bind, pure,
        Except.pure]

/-- The members of a presentation are read one after the other, each part once. -/
theorem exists_membersText {members : List (Option SpecKey)}
    (row : Row '}' (PresentedMember spec) text members) (met : List SpecKey)
    (distinct : (members.flatMap Option.toList).Nodup)
    (fresh : ∀ key ∈ members.flatMap Option.toList, key ∉ met) :
    ∃ opened, text = '"' :: opened ∧
      MembersText readLiteral readPartNamed (.of spec met) opened
        (.of spec ((members.flatMap Option.toList).reverse ++ met)) := by
  have single : ∀ member : Option SpecKey, member.toList.reverse = member.toList := by
    rintro (_ | key) <;> rfl
  induction row generalizing met with
  | @last _ after _ presented blankAfter =>
    obtain ⟨name, content, tail, rfl, literal, accepted⟩ :=
      presented.exists_accepts (by simpa using fresh)
    have last := MembersText.last literal.readLiteral_closed accepted blankAfter
    exact ⟨name ++ '"' :: (tail ++ (after ++ ['}'])), by simp, by simpa [single] using last⟩
  | @more _ after before _ member members presented blankAfter blankBefore _ ih =>
    rw [List.flatMap_cons] at distinct fresh
    obtain ⟨-, distinct, apart⟩ := List.nodup_append.mp distinct
    obtain ⟨freshHere, freshLater⟩ := List.forall_mem_append.mp fresh
    obtain ⟨name, content, tail, rfl, literal, accepted⟩ := presented.exists_accepts freshHere
    have freshBoth : ∀ key ∈ members.flatMap Option.toList, key ∉ member.toList ++ met := by
      intro key later repeated
      rcases List.mem_append.mp repeated with here | old
      · exact apart key here key later rfl
      · exact freshLater key later old
    obtain ⟨opened, rfl, further⟩ := ih (member.toList ++ met) distinct freshBoth
    have whole :=
      MembersText.more literal.readLiteral_closed accepted blankAfter blankBefore further
    exact ⟨name ++ '"' :: (tail ++ (after ++ ',' :: (before ++ '"' :: opened))), by simp,
      by simpa [single] using whole⟩

/-- An object whose members lead to every given part is read as the specification. -/
theorem spells_readOne_of_objectText {keys : List SpecKey}
    (object : ObjectText readLiteral readPartNamed (.of spec []) text (.of spec keys))
    (given : ∀ key, (spec.part? key).isSome → key ∈ keys) : Spells readOne ('{' :: text) spec := by
  refine ⟨⟨'{', text, rfl, by decide⟩, fun rest _ => ?_⟩
  have opened : readToken ('{' :: (text ++ rest)) = .ok (.openObject, text ++ rest) := rfl
  have whole : objectBody .reading readLiteral readPartNamed .empty (text ++ rest) =
      .ok (.of spec keys, rest) :=
    object.objectBody_eq .reading rest
  have complete := PartialSpec.complete?_of given
  simp [readOne, opened, readMembers, whole, complete, bind, Except.bind, pure, Except.pure]

theorem Presented.spells_readOne (presented : Presented text spec) : Spells readOne text spec := by
  cases presented with
  | @object text _ members body distinct given =>
    have object : ObjectText readLiteral readPartNamed (.of spec []) text
        (.of spec (members.flatMap Option.toList).reverse) := by
      cases body with
      | empty blankBefore => exact .empty blankBefore
      | filled blankBefore row =>
        obtain ⟨opened, rfl, further⟩ := exists_membersText row [] distinct (by simp)
        exact .filled blankBefore (by simpa using further)
    exact spells_readOne_of_objectText object fun key isGiven => by simpa using given key isGiven

theorem read_bracket {before : Text} (blank : IsBlank before) (rest : Text) :
    read (before ++ '[' :: rest) =
      InputError.ofJson (readAll (arrayBody .reading readOne) rest) := by
  have opened : readToken (before ++ '[' :: rest) = .ok (.openArray, rest) :=
    readToken_append blank _
  simp only [read, readAll, readList, opened, bind, Except.bind]

/-- A list is read as soon as each of its items is, with blanks around it. -/
theorem read_of_spells {before after : Text} {specs : List FieldSpec} (blankBefore : IsBlank before)
    (body : Body ']' (fun part spec => Spells readOne part spec) text specs)
    (blankAfter : IsBlank after) : read (before ++ '[' :: (text ++ after)) = .ok specs := by
  have whole : arrayBody .reading readOne (text ++ after) = .ok (specs, after) := by
    simpa using body.arrayText.arrayBody_eq .reading after
  rw [read_bracket blankBefore, readAll, whole]
  simp only [skipSpace_blank blankAfter, bind, Except.bind]
  rfl

/-- Every presentation of a list is read as the list. A list with an object in which a part is
repeated is refused, whatever else it holds. -/
theorem read_presentations :
    (∀ text specs, ListText Presented text specs → read text = .ok specs) ∧
      ∀ text items, ListText (Item JsonText) text items → (∃ item ∈ items, RepeatedPart item) →
        ∃ error, read text = .error error := by
  constructor
  · intro text specs presented
    cases presented with
    | list blankBefore body blankAfter =>
      have spelled := body.mono fun _ _ _ presented => presented.spells_readOne
      exact read_of_spells blankBefore spelled blankAfter
  · rintro text items list ⟨item, member, repeated⟩
    cases list with
    | @list before text after _ blankBefore body blankAfter =>
      have whole : Body ']' (Item (TakenWhole readOne)) text items :=
        body.mono fun _ _ _ isItem => ⟨isItem.1, isItem.2.layer.opens, takes_readOne isItem.2⟩
      rw [read_bracket blankBefore, readAll]
      cases result : arrayBody .reading readOne (text ++ after) with
      | error reason => exact ⟨_, rfl⟩
      | ok pair => exact absurd ((whole.of_arrayBody result).2 item member) repeated.not_taken

/-- Parts out of order behind an unknown member, an escaped key and a part that is null; an id that
comes again behind another member. -/
theorem read_presentations_disordered :
    let text := (" [ \x7b\"note\": [1e3, \x7b\"id\": \"\\uD800\"\x7d],\"value\":true," ++
      " \"\\u0069d\" :\"a b\",\"dependsOn\":null\x7d ]\n").toList
    let specs : List FieldSpec := [⟨"a b".toList, some (.boolean true), none, none, none⟩]
    let repeated := "[\x7b\"id\":\"a\",\"x\":[],\"\\u0069d\":\"a\"\x7d]".toList
    ListText Presented text specs ∧ read text = .ok specs ∧
      ∃ error, read repeated = .error error := by
  intro text specs repeated
  have nothing : IsBlank [] := isBlank_nil
  have space : IsBlank [' '] := by decide
  have newline : IsBlank ['\n'] := by decide
  have plain : ∀ content : Text, IsPlainText content → LiteralText content content :=
    fun _ => literalText_plain
  have escapedId : LiteralText ('\\' :: 'u' :: ("0069".toList ++ ['d'])) SpecKey.id.name :=
    .unit (⟨rfl, rfl⟩ : IsUnit "0069".toList 0x69) rfl rfl (plain ['d'] (by decide))
  have number : JsonText _ := Layer.jsonText (.scalar (.number (.positive
    (by decide : IsWhole ['1']) .none (.unsigned (.inl rfl : IsExponentLetter 'e')
      (by decide : IsRun ['3'])))))
  have surrogate : JsonText _ :=
    Layer.jsonText (.scalar (.string (.unit (⟨rfl, rfl⟩ : IsUnit "D800".toList _) .nil)))
  have object : JsonText _ := Layer.jsonText (.object (.filled nothing (.last
    (.member (plain "id".toList (by decide)).shape (.colon nothing space surrogate)) nothing)))
  have note : JsonText _ := Layer.jsonText (.array (.filled nothing
    (.more ⟨rfl, number⟩ nothing space (.last ⟨rfl, object⟩ nothing))))
  have members : Body '}'
      (PresentedMember ⟨"a b".toList, some (.boolean true), none, none, none⟩) _
      [none, some .value, some .id, some .dependsOn] :=
    .filled nothing
      (.more (.other (plain "note".toList (by decide)) (fun key => by cases key <;> decide)
          (.colon nothing space note)) nothing nothing
        (.more (.part (plain "value".toList (by decide)) (.colon nothing nothing (.boolean true)))
          nothing space
          (.more (.part escapedId (.colon space nothing (.text (plain "a b".toList (by decide)))))
            nothing nothing
            (.last (.part (plain "dependsOn".toList (by decide)) (.colon nothing nothing .null))
              nothing))))
  have spec : Presented _ _ := .object members (by decide) fun key => by cases key <;> decide
  have presented : ListText Presented _ _ := .list space (.filled space (.last spec space)) newline
  have presented : ListText Presented text specs := presented
  have letter : JsonText _ := Layer.jsonText (.scalar (.string (plain ['a'] (by decide)).shape))
  have empty : JsonText _ := Layer.jsonText (.array (.empty nothing))
  have body : Body '}' (MemberText (ColonText JsonText)) _ _ :=
    .filled nothing
      (.more (.member (plain "id".toList (by decide)).shape (.colon nothing nothing letter))
        nothing nothing
        (.more (.member (plain ['x'] (by decide)).shape (.colon nothing nothing empty))
          nothing nothing
          (.last (.member escapedId.shape (.colon nothing nothing letter)) nothing)))
  have twice : RepeatedPart _ :=
    .object body (by decide) (plain "id".toList (by decide)) escapedId
  have list : ListText (Item JsonText) _ _ :=
    .list nothing (.filled nothing (.last ⟨rfl, (Layer.object body).jsonText⟩ nothing)) nothing
  exact ⟨presented, read_presentations.1 text specs presented,
    read_presentations.2 repeated _ list ⟨_, List.mem_singleton_self _, twice⟩⟩

end FieldSpec

end FormFill
