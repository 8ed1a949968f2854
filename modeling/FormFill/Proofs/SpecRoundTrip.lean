import FormFill.FieldSpec.Reader
import FormFill.FieldSpec.Writer
import FormFill.Proofs.JsonTexts

/-! # Specifications written and read back

While a specification is read, its state holds the parts of the members that have been met, and the
specification is complete once every given part is among them. So a list of specifications is read
back from its compact form as soon as each of the values in it is.
-/

namespace FormFill

open Json

namespace SpecKey

theorem ofName?_name (key : SpecKey) : ofName? key.name = some key := by
  cases key <;> decide

end SpecKey

namespace FieldValue

/-- The compact form of a value is read as another value wherever a value may end. -/
def ReadsAs (value other : FieldValue) : Prop :=
  Accepts (readOptionalFieldValue FieldSpec.valueDepth) value.toJson.compact (some other)

/-- A value that is read back from its compact form wherever a value may end. -/
def Returns (value : FieldValue) : Prop := value.ReadsAs value

theorem returns_text (content : Text) : (text content).Returns := by
  intro rest _
  change readOptionalFieldValue _ (writeLiteral content ++ rest) = _
  simp [readOptionalFieldValue, readValue_writeLiteral, ofJson?, bind, Except.bind, pure, Except.pure]

theorem returns_boolean (value : Bool) : (boolean value).Returns := by
  intro rest _
  change readOptionalFieldValue _ (writeBoolean value ++ rest) = _
  simp [readOptionalFieldValue, readValue_writeBoolean, ofJson?, bind, Except.bind, pure, Except.pure]

end FieldValue

namespace PartialSpec

/-- The state in which exactly the parts of `keys` have been read, each as `spec` has it. -/
def of (spec : FieldSpec) (keys : List SpecKey) : PartialSpec where
  id := if .id ∈ keys then some spec.id else none
  value := if .value ∈ keys then some spec.value else none
  dependsOn := if .dependsOn ∈ keys then some spec.dependsOn else none
  generationRule := if .generationRule ∈ keys then some spec.generationRule else none
  maxGeneration := if .maxGeneration ∈ keys then some spec.maxGeneration else none

theorem has_of (spec : FieldSpec) (keys : List SpecKey) (key : SpecKey) :
    (of spec keys).has key = decide (key ∈ keys) := by
  cases key <;> simp only [has, of] <;> split <;> simp [*]

end PartialSpec

namespace FieldSpec

/-- A part as a JSON value, if it is given. -/
def part? (spec : FieldSpec) : SpecKey → Option Json
  | .id => some (.string spec.id)
  | .value => spec.value.map (·.toJson)
  | .dependsOn => spec.dependsOn.map .string
  | .generationRule => spec.generationRule.map .string
  | .maxGeneration => spec.maxGeneration.map .string

/-- The members that are written for given parts. -/
def membersOf (spec : FieldSpec) (keys : List SpecKey) : List (Text × Json) :=
  keys.filterMap fun key => (spec.part? key).map (key.name, ·)

theorem toJson_eq (spec : FieldSpec) : spec.toJson = .object (spec.membersOf SpecKey.all) := by
  obtain ⟨id, value, dependsOn, generationRule, maxGeneration⟩ := spec
  cases value <;> cases dependsOn <;> cases generationRule <;> cases maxGeneration <;> rfl

end FieldSpec

namespace PartialSpec

/-- A part that is met when it is given is completed to itself. -/
private theorem join_met {α : Type} {part : Option α} {keys : List SpecKey} {key : SpecKey}
    (met : part.isSome → key ∈ keys) :
    (if key ∈ keys then some part else none).join = part := by
  split
  · rfl
  · next unmet =>
    cases part with
    | none => rfl
    | some _ => exact absurd (met rfl) unmet

/-- A specification is complete once every part that it gives has been read. -/
theorem complete?_of {spec : FieldSpec} {keys : List SpecKey}
    (met : ∀ key, (spec.part? key).isSome → key ∈ keys) : (of spec keys).complete? = some spec := by
  have identified : SpecKey.id ∈ keys := met .id rfl
  have value : (of spec keys).value.join = spec.value :=
    join_met fun given => met .value (by simpa [FieldSpec.part?] using given)
  have depends : (of spec keys).dependsOn.join = spec.dependsOn :=
    join_met fun given => met .dependsOn (by simpa [FieldSpec.part?] using given)
  have generation : (of spec keys).generationRule.join = spec.generationRule :=
    join_met fun given => met .generationRule (by simpa [FieldSpec.part?] using given)
  have padding : (of spec keys).maxGeneration.join = spec.maxGeneration :=
    join_met fun given => met .maxGeneration (by simpa [FieldSpec.part?] using given)
  rw [complete?, value, depends, generation, padding]
  simp [of, identified]

end PartialSpec

namespace FieldSpec

variable {spec : FieldSpec} {other : Option FieldValue} {keys : List SpecKey} {key : SpecKey}
  {item : Json}

/-- A given part is read from its compact form, the value as what its form is read as. -/
theorem accepts_readPart (reads : Option.Rel FieldValue.ReadsAs spec.value other)
    (given : spec.part? key = some item) :
    Accepts (readPart (.of { spec with value := other } keys) key) item.compact
      (.of { spec with value := other } (key :: keys)) := by
  intro rest ends
  cases key with
  | id =>
    obtain rfl : Json.string spec.id = item := Option.some.inj given
    have read := readString_writeLiteral spec.id rest
    simp [readPart, compact, read, PartialSpec.of, bind, Except.bind, pure, Except.pure]
  | value =>
    obtain ⟨value, same, rfl⟩ := Option.map_eq_some_iff.mp given
    rw [same] at reads
    cases reads with
    | some readsAs =>
      have read := readsAs rest ends
      simp [readPart, read, PartialSpec.of, bind, Except.bind, pure, Except.pure]
  | dependsOn | generationRule | maxGeneration =>
    obtain ⟨rule, same, rfl⟩ := Option.map_eq_some_iff.mp given
    have read := readOptionalString_writeLiteral rule rest
    simp [readPart, compact, read, PartialSpec.of, same, bind, Except.bind, pure, Except.pure]

/-- A given part that has not been met is read from its member. -/
theorem accepts_readPartNamed (reads : Option.Rel FieldValue.ReadsAs spec.value other)
    (fresh : key ∉ keys) (given : spec.part? key = some item) :
    Accepts (readPartNamed (.of { spec with value := other } keys) key.name) (':' :: item.compact)
      (.of { spec with value := other } (key :: keys)) := by
  intro rest ends
  have read : readPart (.of { spec with value := other } keys) key (item.compact ++ rest) =
      .ok (.of { spec with value := other } (key :: keys), rest) :=
    accepts_readPart reads given rest ends
  have colon : readColon (':' :: (item.compact ++ rest)) = .ok ((), item.compact ++ rest) :=
    readColon_append isBlank_nil _
  simp [readPartNamed, SpecKey.ofName?_name, PartialSpec.has_of, fresh, colon, read, bind,
    Except.bind]

/-- The members of parts that have not been met are read one after the other. -/
theorem steps_membersOf (reads : Option.Rel FieldValue.ReadsAs spec.value other)
    (met : List SpecKey) (distinct : keys.Nodup) (fresh : ∀ key ∈ keys, key ∉ met) :
    Steps readPartNamed (.of { spec with value := other } met) (spec.membersOf keys)
      (.of { spec with value := other }
        ((keys.filter fun key => (spec.part? key).isSome).reverse ++ met)) := by
  induction keys generalizing met with
  | nil => exact .done
  | cons key keys ih =>
    obtain ⟨unrepeated, distinct⟩ := List.nodup_cons.mp distinct
    obtain ⟨unmet, fresh⟩ := List.forall_mem_cons.mp fresh
    cases given : spec.part? key with
    | none => simpa [membersOf, given] using ih met distinct fresh
    | some item =>
      have further := ih (key :: met) distinct fun other member repeated => by
        rcases List.mem_cons.mp repeated with rfl | old
        · exact unrepeated member
        · exact fresh other member old
      simpa [membersOf, given] using Steps.step (accepts_readPartNamed reads unmet given) further

/-- The parts that are given do not depend on what the value is read as. -/
theorem isSome_part? (reads : Option.Rel FieldValue.ReadsAs spec.value other) (key : SpecKey) :
    (({ spec with value := other } : FieldSpec).part? key).isSome = (spec.part? key).isSome := by
  cases key with
  | value =>
    obtain ⟨id, value, dependsOn, generationRule, maxGeneration⟩ := spec
    cases reads <;> rfl
  | id | dependsOn | generationRule | maxGeneration => rfl

/-- A specification is read back from its compact form, but for what its value is read as. -/
theorem spells_readOne (reads : Option.Rel FieldValue.ReadsAs spec.value other) :
    Spells readOne spec.toJson.compact { spec with value := other } := by
  obtain ⟨met, steps, given⟩ : ∃ met,
      Steps readPartNamed .empty (spec.membersOf SpecKey.all)
          (.of { spec with value := other } met) ∧
        ∀ key, (({ spec with value := other } : FieldSpec).part? key).isSome → key ∈ met := by
    refine ⟨_, steps_membersOf reads [] (by decide) (by simp), fun key given => ?_⟩
    have known : key ∈ SpecKey.all := by cases key <;> decide
    rw [isSome_part? reads] at given
    simpa [given] using known
  obtain ⟨body, form, object⟩ := steps.exists_objectText
  rw [← toJson_eq] at form
  refine ⟨⟨'{', body, form, rfl, by decide⟩, ?_⟩
  intro rest _
  have opened : readToken ('{' :: (body ++ rest)) = .ok (.openObject, body ++ rest) := rfl
  have whole := object.objectBody_eq .reading rest
  have complete := PartialSpec.complete?_of given
  simp [form, readOne, opened, readMembers, whole, complete, bind, Except.bind, pure, Except.pure]

/-- Values that are read back are read as themselves. -/
theorem rel_of_returns (returns : ∀ value ∈ spec.value, value.Returns) :
    Option.Rel FieldValue.ReadsAs spec.value spec.value := by
  cases given : spec.value with
  | none => exact .none
  | some value => exact .some (returns value given)

/-- A list is read as soon as each of its items is read from its compact form. -/
theorem read_compact (form : FieldSpec → Json) {specs : List FieldSpec}
    (spelled : ∀ spec ∈ specs, Spells readOne (form spec).compact spec) :
    read (Json.array (specs.map form)).compact = .ok specs := by
  obtain ⟨body, compact, array⟩ := exists_arrayText_compact form spelled
  have opened : readToken ('[' :: body) = .ok (.openArray, body) := rfl
  have whole : arrayBody .reading readOne body = .ok (specs, []) := by
    simpa using array.arrayBody_eq .reading []
  have nothing : skipSpace [] = [] := rfl
  simp [read, compact, readAll, readList, opened, whole, nothing, InputError.ofJson, bind,
    Except.bind, pure, Except.pure]

/-- A list of specifications is read back from its compact form, if all values in it are. -/
theorem read_write_of_returns {specs : List FieldSpec}
    (returns : ∀ spec ∈ specs, ∀ value ∈ spec.value, value.Returns) :
    read (write specs) = .ok specs :=
  read_compact toJson fun spec member => spells_readOne (rel_of_returns (returns spec member))

/-- A specification is read back alone, but for what its value is read as. -/
theorem read_write_singleton (reads : Option.Rel FieldValue.ReadsAs spec.value other) :
    read (write [spec]) = .ok [{ spec with value := other }] :=
  read_compact (fun _ => spec.toJson) (List.forall_mem_singleton.mpr (spells_readOne reads))

/-- A list of specifications whose values are texts and booleans is read back from its compact form,
whatever characters its texts are made of. -/
theorem read_write {specs : List FieldSpec}
    (numberless : ∀ spec ∈ specs, ∀ number, spec.value ≠ some (.number number)) :
    read (write specs) = .ok specs := by
  apply read_write_of_returns
  intro spec member value given
  cases value with
  | text content => exact FieldValue.returns_text content
  | boolean value => exact FieldValue.returns_boolean value
  | number number => exact absurd given (numberless spec member number)

/-- Quotes, backslashes, controls, empty texts and empty rules are all kept. -/
theorem read_write_escaped :
    let specs : List FieldSpec :=
      [⟨"a\"b\\c".toList, some (.boolean true), some [], none, none⟩,
        ⟨[], some (.text ['\x01', '\n']), none, none, some "(é[2])".toList⟩]
    let text :=
      ("[\x7b\"id\":\"a\\\"b\\\\c\",\"value\":true,\"dependsOn\":\"\"\x7d," ++
        "\x7b\"id\":\"\",\"value\":\"\\u0001\\n\",\"maxGeneration\":\"(é[2])\"\x7d]").toList
    write specs = text ∧ read text = .ok specs := by
  intro specs text
  have written : write specs = text := by decide
  have numberless : ∀ spec ∈ specs, ∀ number, spec.value ≠ some (.number number) := by simp [specs]
  exact ⟨written, written ▸ read_write numberless⟩

end FieldSpec

end FormFill
