import FormFill.FieldSpec
import FormFill.Generation
import FormFill.Rule.Padding

/-! # Population

Specifications are populated in order, each against the known fields overwritten by the results
before it. An entered value wins, then the expression depended on, then the generation rule;
otherwise the field keeps its known value or is empty. The padding rule then applies to the display
text, and only a changed text replaces the value. A field whose padding fails ends the population
without results.
-/

namespace FormFill

/-- Where a populated value came from. -/
inductive ValueSource where
  | explicit
  | dependsOn
  | generated
  | known
  | empty
deriving DecidableEq

namespace ValueSource

/-- The name of a source in results. -/
def label : ValueSource → Text
  | .explicit => "explicit".toList
  | .dependsOn => "depends-on".toList
  | .generated => "generated".toList
  | .known => "known".toList
  | .empty => "empty".toList

end ValueSource

/-- The result for one specification. -/
structure PopulatedField where
  id : Text
  value : FieldValue
  source : ValueSource
  padded : Bool
deriving DecidableEq

/-- The results of a row of specifications, the fields after them and the random source after them.
-/
structure Population where
  resolved : List PopulatedField
  fields : FieldMap
  source : Source

namespace FieldSpec

/-- The value of a field before padding, and where it came from. -/
def resolve (spec : FieldSpec) (fields : FieldMap) (source : Source) :
    (FieldValue × ValueSource) × Source :=
  match spec.value with
  | some value => ((value, .explicit), source)
  | none =>
    match given spec.dependsOn with
    | some expression => ((.text (FormFill.extract expression fields), .dependsOn), source)
    | none =>
      match given spec.generationRule with
      | some rule =>
        let (text, source) := FormFill.generate rule (some fields) source
        ((.text text, .generated), source)
      | none =>
        match fields.get? spec.id with
        | some value => ((value, .known), source)
        | none => ((.text [], .empty), source)

/-- The value after padding, and whether padding changed its text. -/
def pad (spec : FieldSpec) (value : FieldValue) : Option (FieldValue × Bool) :=
  match given spec.maxGeneration with
  | some rule => do
    let text ← Padding.paddedBy? rule value.display
    return if text = value.display then (value, false) else (.text text, true)
  | none => some (value, false)

/-- Populate one field. -/
def populate (spec : FieldSpec) (fields : FieldMap) (source : Source) :
    Option (PopulatedField × Source) := do
  let ((value, origin), source) := spec.resolve fields source
  let (value, padded) ← spec.pad value
  return (⟨spec.id, value, origin, padded⟩, source)

theorem populate_eq_some_iff {spec : FieldSpec} {fields : FieldMap} {source moved : Source}
    {entry : PopulatedField} :
    spec.populate fields source = some (entry, moved) ↔
      let found := spec.resolve fields source
      spec.pad found.1.1 = some (entry.value, entry.padded) ∧ entry.id = spec.id ∧
        entry.source = found.1.2 ∧ moved = found.2 := by
  obtain ⟨id, value, origin, padded⟩ := entry
  simp only [populate, bind, Option.bind_eq_some_iff, pure, Option.some.injEq, Prod.mk.injEq,
    PopulatedField.mk.injEq]
  constructor
  · rintro ⟨⟨value, padded⟩, filled, ⟨rfl, rfl, rfl, rfl⟩, rfl⟩
    exact ⟨filled, rfl, rfl, rfl⟩
  · rintro ⟨filled, rfl, rfl, rfl⟩
    exact ⟨_, filled, ⟨rfl, rfl, rfl, rfl⟩, rfl⟩

theorem populate_eq_none_iff {spec : FieldSpec} {fields : FieldMap} {source : Source} :
    spec.populate fields source = none ↔ spec.pad (spec.resolve fields source).1.1 = none := by
  rw [populate]
  obtain ⟨⟨value, origin⟩, moved⟩ := spec.resolve fields source
  cases padded : spec.pad value <;> simp [padded]

end FieldSpec

/-- Populate fields in order over one random source. -/
def populate : List FieldSpec → FieldMap → Source → Option Population
  | [], fields, source => some ⟨[], fields, source⟩
  | spec :: rest, fields, source => do
    let (entry, source) ← spec.populate fields source
    let after ← populate rest (fields.insert entry.id entry.value) source
    return { after with resolved := entry :: after.resolved }

section Runs

variable {fields : FieldMap} {source : Source} {run : Population}

theorem populate_nil_eq_some_iff :
    populate [] fields source = some run ↔ run = ⟨[], fields, source⟩ := by
  rw [populate, Option.some.injEq, eq_comm]

/-- A run populates its first field and goes on from where that leaves the fields and the source. -/
theorem populate_cons_eq_some_iff {spec : FieldSpec} {rest : List FieldSpec} :
    populate (spec :: rest) fields source = some run ↔
      ∃ entry moved after, spec.populate fields source = some (entry, moved) ∧
        populate rest (fields.insert spec.id entry.value) moved = some after ∧
        run = ⟨entry :: after.resolved, after.fields, after.source⟩ := by
  simp only [populate, bind, Option.bind_eq_some_iff, pure, Option.some.injEq]
  constructor
  · rintro ⟨⟨entry, moved⟩, step, after, later, rfl⟩
    have named : entry.id = spec.id := (FieldSpec.populate_eq_some_iff.mp step).2.1
    exact ⟨entry, moved, after, step, named ▸ later, rfl⟩
  · rintro ⟨entry, moved, after, step, later, rfl⟩
    have named : entry.id = spec.id := (FieldSpec.populate_eq_some_iff.mp step).2.1
    exact ⟨(entry, moved), step, after, named ▸ later, rfl⟩

/-- A run stops at its first field or behind it. -/
theorem populate_cons_eq_none_iff {spec : FieldSpec} {rest : List FieldSpec} :
    populate (spec :: rest) fields source = none ↔
      spec.populate fields source = none ∨
        ∃ entry moved, spec.populate fields source = some (entry, moved) ∧
          populate rest (fields.insert spec.id entry.value) moved = none := by
  constructor
  · intro stopped
    cases step : spec.populate fields source with
    | none => exact .inl rfl
    | some pair =>
      obtain ⟨entry, moved⟩ := pair
      refine .inr ⟨entry, moved, rfl, Option.eq_none_iff_forall_ne_some.mpr fun after later => ?_⟩
      have whole := populate_cons_eq_some_iff.mpr ⟨entry, moved, after, step, later, rfl⟩
      exact Option.some_ne_none _ (whole.symm.trans stopped)
  · rintro (failed | ⟨entry, moved, step, later⟩)
    · simp [populate, failed]
    · have named : entry.id = spec.id := (FieldSpec.populate_eq_some_iff.mp step).2.1
      simp [populate, step, named, later]

/-- Populating a row of specifications is populating its front and then, from there, its back. -/
theorem populate_append (front back : List FieldSpec) (fields : FieldMap) (source : Source) :
    populate (front ++ back) fields source = do
      let first ← populate front fields source
      let second ← populate back first.fields first.source
      return ⟨first.resolved ++ second.resolved, second.fields, second.source⟩ := by
  induction front generalizing fields source with
  | nil => exact (bind_pure (populate back fields source)).symm
  | cons spec rest ih =>
    simp only [List.cons_append, populate, ih, bind_assoc, pure_bind]

/-- A run comes to each of its fields from where those before it leave the fields and the source. -/
theorem populate_split_eq_some_iff {front : List FieldSpec} {spec : FieldSpec}
    {back : List FieldSpec} :
    populate (front ++ spec :: back) fields source = some run ↔
      ∃ before entry moved after, populate front fields source = some before ∧
        spec.populate before.fields before.source = some (entry, moved) ∧
        populate back (before.fields.insert spec.id entry.value) moved = some after ∧
        run = ⟨before.resolved ++ entry :: after.resolved, after.fields, after.source⟩ := by
  simp only [populate_append, bind, Option.bind_eq_some_iff, pure, Option.some.injEq,
    populate_cons_eq_some_iff]
  constructor
  · rintro ⟨before, ran, second, ⟨entry, moved, after, step, later, rfl⟩, rfl⟩
    exact ⟨before, entry, moved, after, ran, step, later, rfl⟩
  · rintro ⟨before, entry, moved, after, ran, step, later, rfl⟩
    exact ⟨before, ran, _, ⟨entry, moved, after, step, later, rfl⟩, rfl⟩

end Runs

end FormFill
