import FormFill.Proofs.JsonValues

/-! # Field maps keep the last value of each name

An object may give a name several times. Only the values that are given last count: when all of them
are scalars a field map holds exactly them, and otherwise the least name with another one is
reported. An unsupported value that is replaced later is not reported, and a supported one that is
replaced by an unsupported one does not help.
-/

namespace FormFill

open Json

/-- Among pairs from first to last, this value is the last that the name is given. -/
def GivenLast {Value : Type} (pairs : List (Text × Value)) (name : Text) (value : Value) : Prop :=
  ∃ earlier later, pairs = earlier ++ (name, value) :: later ∧ name ∉ later.map (·.1)

namespace NameMap

variable {Value : Type} {pairs : List (Text × Value)} {name : Text} {value : Value}

theorem find?_eq_some_iff : find? name pairs = some value ↔
    ∃ front back, pairs = front ++ (name, value) :: back ∧ name ∉ front.map (·.1) := by
  constructor
  · intro found
    induction pairs with
    | nil => contradiction
    | cons pair pairs ih =>
      rcases pair with ⟨other, previous⟩
      unfold find? at found
      split at found
      · next same =>
        cases found
        exact ⟨[], pairs, by rw [same, List.nil_append], List.not_mem_nil⟩
      · next different =>
        obtain ⟨front, back, rfl, absent⟩ := ih found
        exact ⟨(other, previous) :: front, back, rfl, by simp_all⟩
  · rintro ⟨front, back, rfl, absent⟩
    induction front with
    | nil => simp [find?]
    | cons pair front ih =>
      obtain ⟨different, further⟩ : name ≠ pair.1 ∧ name ∉ front.map (·.1) := by simpa using absent
      rw [List.cons_append, find?, if_neg different]
      exact ih further

/-- The map of a list of pairs holds what each name is given last. -/
theorem get?_ofList_eq_some_iff :
    (ofList pairs).get? name = some value ↔ GivenLast pairs name value := by
  rw [ofList, get?_overwrite, get?_empty, Option.or_none, find?_eq_some_iff]
  constructor
  · rintro ⟨later, earlier, reversed, absent⟩
    have whole : pairs = earlier.reverse ++ (name, value) :: later.reverse := by
      simpa using congrArg List.reverse reversed
    exact ⟨_, _, whole, by simpa using absent⟩
  · rintro ⟨earlier, later, rfl, absent⟩
    exact ⟨later.reverse, earlier.reverse, by simp, by simpa using absent⟩

/-- Of pairs in ascending order of name every one is the last of its name. -/
theorem get?_ofList_of_ascending (ascending : pairs.Pairwise fun left right => left.1 < right.1) :
    (ofList pairs).get? name = some value ↔ (name, value) ∈ pairs := by
  rw [get?_ofList_eq_some_iff]
  constructor
  · rintro ⟨earlier, later, rfl, -⟩
    simp
  · intro member
    obtain ⟨earlier, later, rfl⟩ := List.append_of_mem member
    refine ⟨earlier, later, rfl, fun repeated => ?_⟩
    obtain ⟨entry, behind, same⟩ := List.mem_map.mp repeated
    have greater : name < entry.1 :=
      (List.pairwise_cons.mp (List.pairwise_append.mp ascending).2.1).1 entry behind
    exact List.lt_irrefl _ (same ▸ greater)

end NameMap

/-- The kind of a value that is neither text nor a number nor a boolean. -/
def UnsupportedKind.of? : Json → Option UnsupportedKind
  | .null => some .null
  | .array _ => some .array
  | .object _ => some .object
  | .string _ | .number _ | .boolean _ => none

namespace FieldMap

/-- A name whose last value is of a kind that no field can hold. -/
def LastUnsupported (members : List (Text × Json)) (name : Text) (kind : UnsupportedKind) : Prop :=
  ∃ json, GivenLast members name json ∧ UnsupportedKind.of? json = some kind

variable {name text : Text} {json : Json} {kind : UnsupportedKind}
  {entries members : List (Text × Json)}

theorem exists_ofJson? (supported : UnsupportedKind.of? json = none) :
    ∃ value, FieldValue.ofJson? json = some value := by
  cases json with
  | null | array _ | object _ => contradiction
  | string _ | number _ | boolean _ => exact ⟨_, rfl⟩

/-- A value of an unsupported kind is refused with its kind, under any name. -/
theorem fieldValue_of_kind (unsupported : UnsupportedKind.of? json = some kind) (name : Text) :
    fieldValue name json = .error (.unsupported name kind) := by
  cases json <;> cases unsupported <;> rfl

/-- The field values of entries, leaving out what no field can hold. -/
def supported (entries : List (Text × Json)) : List (Text × FieldValue) :=
  entries.filterMap fun entry => (FieldValue.ofJson? entry.2).map (entry.1, ·)

theorem mem_supported {value : FieldValue} : (name, value) ∈ supported entries ↔
    ∃ json, (name, json) ∈ entries ∧ FieldValue.ofJson? json = some value := by
  constructor
  · intro member
    obtain ⟨⟨_, json⟩, listed, held⟩ := List.mem_filterMap.mp member
    obtain ⟨_, holds, same⟩ := Option.map_eq_some_iff.mp held
    cases same
    exact ⟨json, listed, holds⟩
  · rintro ⟨json, listed, holds⟩
    exact List.mem_filterMap.mpr ⟨(name, json), listed, by simp [holds]⟩

theorem supported_ascending (ascending : entries.Pairwise fun left right => left.1 < right.1) :
    (supported entries).Pairwise fun left right => left.1 < right.1 := by
  refine ascending.filterMap _ fun left right less first held second heldToo => ?_
  obtain ⟨_, -, rfl⟩ := Option.map_eq_some_iff.mp held
  obtain ⟨_, -, rfl⟩ := Option.map_eq_some_iff.mp heldToo
  exact less

/-- Supported entries give their values, and then what stands behind them is looked at. -/
theorem fieldValues_append (front back : List (Text × Json))
    (all : ∀ entry ∈ front, UnsupportedKind.of? entry.2 = none) :
    fieldValues (front ++ back) = (fieldValues back).map (supported front ++ ·) := by
  induction front with
  | nil =>
    rw [List.nil_append]
    cases fieldValues back <;> rfl
  | cons entry front ih =>
    obtain ⟨here, further⟩ := List.forall_mem_cons.mp all
    obtain ⟨value, holds⟩ := exists_ofJson? here
    rw [List.cons_append, fieldValues, FieldValue.fieldValue_of_ofJson? holds, ih further]
    cases fieldValues back <;>
      simp [supported, holds, bind, Except.bind, pure, Except.pure, Except.map]

theorem fieldValues_eq_ok (all : ∀ entry ∈ entries, UnsupportedKind.of? entry.2 = none) :
    fieldValues entries = .ok (supported entries) := by
  simpa [fieldValues, Except.map, pure, Except.pure] using fieldValues_append entries [] all

/-- Of entries in ascending order of name, the least of an unsupported kind is reported. -/
theorem exists_fieldValues_eq_error
    (ascending : entries.Pairwise fun left right => left.1 < right.1)
    (refused : ∃ entry ∈ entries, UnsupportedKind.of? entry.2 ≠ none) :
    ∃ name json kind, (name, json) ∈ entries ∧ UnsupportedKind.of? json = some kind ∧
      (∀ other ∈ entries, UnsupportedKind.of? other.2 ≠ none → name = other.1 ∨ name < other.1) ∧
      fieldValues entries = .error (.unsupported name kind) := by
  obtain ⟨entry, listed, unsupported⟩ := refused
  cases first : entries.find? fun entry => (UnsupportedKind.of? entry.2).isSome with
  | none =>
    have supported := List.find?_eq_none.mp first entry listed
    exact absurd (Option.not_isSome_iff_eq_none.mp supported) unsupported
  | some least =>
    rcases least with ⟨name, json⟩
    obtain ⟨holds, front, back, rfl, before⟩ := List.find?_eq_some_iff_append.mp first
    obtain ⟨kind, isKind⟩ := Option.isSome_iff_exists.mp holds
    have frontSupported : ∀ entry ∈ front, UnsupportedKind.of? entry.2 = none :=
      fun entry member => by simpa using before entry member
    refine ⟨name, json, kind, by simp, isKind, fun other member unsupported => ?_, ?_⟩
    · rcases List.mem_append.mp member with inFront | inRest
      · exact absurd (frontSupported other inFront) unsupported
      rcases List.mem_cons.mp inRest with rfl | behind
      · exact .inl rfl
      · have ordered := (List.pairwise_append.mp ascending).2.1
        exact .inr ((List.pairwise_cons.mp ordered).1 other behind)
    · rw [fieldValues_append _ _ frontSupported, fieldValues, fieldValue_of_kind isKind]
      rfl

/-- The object of a text is read first, and its entries are then looked at in order of name. -/
theorem read_eq (denotes : ObjectDenotes (depthLimit - 1) text members) :
    read text = (fieldValues (NameMap.ofList members).entries).map NameMap.ofList := by
  rw [read, denotes.readAll_eq]
  rfl

theorem mem_entries_ofList : (name, json) ∈ (NameMap.ofList members).entries ↔
    GivenLast members name json :=
  NameMap.get?_eq_some_iff.symm.trans NameMap.get?_ofList_eq_some_iff

/-- When no name ends with an unsupported value, the field map has the last value of every name. -/
theorem exists_read_eq_ok (denotes : ObjectDenotes (depthLimit - 1) text members)
    (supportedLast : ¬ ∃ name kind, LastUnsupported members name kind) :
    ∃ fields, read text = .ok fields ∧ ∀ name value, fields.get? name = some value ↔
      ∃ json, GivenLast members name json ∧ FieldValue.ofJson? json = some value := by
  have all : ∀ entry ∈ (NameMap.ofList members).entries, UnsupportedKind.of? entry.2 = none := by
    rintro ⟨name, json⟩ member
    cases isKind : UnsupportedKind.of? json with
    | none => rfl
    | some kind =>
      exact absurd ⟨name, kind, json, mem_entries_ofList.mp member, isKind⟩ supportedLast
  refine ⟨_, by rw [read_eq denotes, fieldValues_eq_ok all]; rfl, fun name value => ?_⟩
  have ascending := supported_ascending (NameMap.ofList members).ascending
  rw [NameMap.get?_ofList_of_ascending ascending, mem_supported]
  simp only [mem_entries_ofList]

/-- Otherwise the least name that ends with an unsupported value is reported. -/
theorem exists_read_eq_error (denotes : ObjectDenotes (depthLimit - 1) text members)
    (unsupportedLast : ∃ name kind, LastUnsupported members name kind) :
    ∃ name kind, LastUnsupported members name kind ∧
      (∀ other otherKind, LastUnsupported members other otherKind → name = other ∨ name < other) ∧
      read text = .error (.unsupported name kind) := by
  have refused : ∃ entry ∈ (NameMap.ofList members).entries,
      UnsupportedKind.of? entry.2 ≠ none := by
    obtain ⟨name, kind, json, last, isKind⟩ := unsupportedLast
    exact ⟨(name, json), mem_entries_ofList.mpr last, by simp [isKind]⟩
  obtain ⟨name, json, kind, member, isKind, least, reported⟩ :=
    exists_fieldValues_eq_error (NameMap.ofList members).ascending refused
  refine ⟨name, kind, ⟨json, mem_entries_ofList.mp member, isKind⟩, ?_, ?_⟩
  · rintro other otherKind ⟨content, last, isOther⟩
    exact least (other, content) (mem_entries_ofList.mpr last) (by simp [isOther])
  · rw [read_eq denotes, reported]
    rfl

/-- Members whose values nest within the limit of the reader, with numbers in range, are listed by
some object. Whatever object lists them: when the last value of every name is text, a number or a
boolean, it is read as the field map that has exactly these last values; otherwise the least name
whose last value is of another kind is reported with that kind. Another object with the same last
values is read alike, so a value that is replaced does not matter. -/
theorem read_keeps_last (within : ∀ member ∈ members, member.2.Within (depthLimit - 1)) :
    (∃ text, ObjectDenotes (depthLimit - 1) text members) ∧
      ∀ text, ObjectDenotes (depthLimit - 1) text members →
        ((¬ ∃ name kind, LastUnsupported members name kind) →
          ∃ fields, read text = .ok fields ∧ ∀ name value, fields.get? name = some value ↔
            ∃ json, GivenLast members name json ∧ FieldValue.ofJson? json = some value) ∧
        ((∃ name kind, LastUnsupported members name kind) →
          ∃ name kind, LastUnsupported members name kind ∧
            (∀ other otherKind, LastUnsupported members other otherKind →
              name = other ∨ name < other) ∧
            read text = .error (.unsupported name kind)) ∧
        ∀ otherText others, ObjectDenotes (depthLimit - 1) otherText others →
          (∀ name json, GivenLast others name json ↔ GivenLast members name json) →
            read otherText = read text := by
  refine ⟨exists_objectDenotes within, fun text denotes => ⟨exists_read_eq_ok denotes,
    exists_read_eq_error denotes, fun otherText others otherDenotes same => ?_⟩⟩
  have maps : NameMap.ofList others = NameMap.ofList members := by
    ext name json
    rw [NameMap.get?_ofList_eq_some_iff, NameMap.get?_ofList_eq_some_iff, same]
  rw [read_eq otherDenotes, read_eq denotes, maps]

/-- Of three names that are given a null or an array, one is given text later and one only before
its null, so the array is the least that is reported. -/
theorem read_keeps_last_replaced :
    let text := ("\x7b\"é\":1,\"b\":[true,\x7b\x7d],\"a\":null," ++
      "\"é\":null,\"a\":\"x\"\x7d").toList
    let members : List (Text × Json) := [("é".toList, .number (.integer 1)),
      ("b".toList, .array [.boolean true, .object []]), ("a".toList, .null), ("é".toList, .null),
      ("a".toList, .string "x".toList)]
    (∀ member ∈ members, member.2.Within (depthLimit - 1)) ∧
      read text = .error (.unsupported "b".toList .array) := by
  intro text members
  have nothing : IsBlank [] := isBlank_nil
  have one : NumberText ['1'] ⟨false, ['1'], none, none⟩ :=
    .positive (by decide : IsWhole ['1']) .none .none
  have inRange : NumberLiteral.value ⟨false, ['1'], none, none⟩ = .ok (.integer 1) := rfl
  have items : ∀ item ∈ [Json.boolean true, .object []], item.Within 125 := by
    simp only [List.forall_mem_cons]
    exact ⟨.boolean true, .object (List.forall_mem_nil _), List.forall_mem_nil _⟩
  have within : ∀ member ∈ members, member.2.Within (depthLimit - 1) := by
    simp only [members, List.forall_mem_cons]
    exact ⟨.number one inRange, .array items, .null, .null, .string _, List.forall_mem_nil _⟩
  have object : Denotes 125 ['{', '}'] (.object []) := LayerDenotes.object (.empty nothing)
  have array : Denotes 126 _ (.array [.boolean true, .object []]) :=
    LayerDenotes.array (.filled nothing
      (.more ((ScalarDenotes.boolean true).denotes 125) nothing nothing (.last object nothing)))
  have number : Denotes 126 _ (.number (.integer 1)) := (ScalarDenotes.number one inRange).denotes _
  have null : Denotes 126 _ .null := ScalarDenotes.null.denotes _
  have string : Denotes 126 _ (.string "x".toList) :=
    (ScalarDenotes.string (literalText_plain (by decide))).denotes _
  have row : Row '}' (MemberDenotes (Denotes 126)) _ members :=
    .more (.member (literalText_plain (by decide)) nothing nothing number) nothing nothing
      (.more (.member (literalText_plain (by decide)) nothing nothing array) nothing nothing
        (.more (.member (literalText_plain (by decide)) nothing nothing null) nothing nothing
          (.more (.member (literalText_plain (by decide)) nothing nothing null) nothing nothing
            (.last (.member (literalText_plain (by decide)) nothing nothing string) nothing))))
  have denotes : ObjectDenotes (depthLimit - 1) text members :=
    .object nothing (.filled nothing row) nothing
  have unsupported : LastUnsupported members "b".toList .array :=
    ⟨_, ⟨[_], [_, _, _], rfl, by decide⟩, rfl⟩
  obtain ⟨name, kind, ⟨json, last, isKind⟩, least, reported⟩ :=
    ((read_keeps_last within).2 text denotes).2.1 ⟨_, _, unsupported⟩
  have before : name = "b".toList ∨ name < "b".toList := least _ _ unsupported
  have entries : (NameMap.ofList members).entries = [("a".toList, .string "x".toList),
      ("b".toList, .array [.boolean true, .object []]), ("é".toList, .null)] := rfl
  have listed := mem_entries_ofList.mpr last
  rw [entries] at listed
  simp only [List.mem_cons, List.not_mem_nil, or_false, Prod.mk.injEq] at listed
  rcases listed with ⟨rfl, rfl⟩ | ⟨rfl, rfl⟩ | ⟨rfl, rfl⟩
  · cases isKind
  · cases isKind
    exact ⟨within, reported⟩
  · exact absurd before (by decide)

end FieldMap

end FormFill
