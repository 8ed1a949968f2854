import FormFill.Proofs.PaddingRules
import FormFill.Proofs.Repopulation

/-! # Padded fields

A specification pads the display text of the value that it resolves to, when that text lacks
characters and the fillers for them fit in memory. The result says so and holds the padded text. In
every other case, also when the padding rule is no rule at all, it holds the value itself, so that
numbers and booleans stay what they are. A text that does not fit in memory together with its
fillers leaves the whole population without results.
-/

namespace FormFill

namespace FieldSpec

/-- The padding that a specification asks for, when a value lacks characters of it and the fillers
for these fit in memory. -/
def Lacks (spec : FieldSpec) (value : FieldValue) (padding : Padding) : Prop :=
  ∃ rule, spec.maxGeneration = some rule ∧ Padding.Denotes rule padding ∧
    value.display.length < padding.length ∧
    padding.filler.byteSize * (padding.length - value.display.length) ≤ 2 ^ 63 - 1

/-- The display text of a value would be too large for memory once it is padded. -/
def Overfills (spec : FieldSpec) (value : FieldValue) : Prop :=
  ∃ rule padding, spec.maxGeneration = some rule ∧ Padding.Denotes rule padding ∧
    2 ^ 63 - 1 < padding.paddedSize value.display

section Padding

variable {spec : FieldSpec} {value : FieldValue}

theorem given_eq_some_iff {rule : Option Text} {text : Text} :
    given rule = some text ↔ rule = some text ∧ text ≠ [] := by
  rw [given, Option.filter_eq_some_iff]
  simp

/-- By a rule that can be read, a value is padded as that rule says. -/
theorem pad_of_denotes {rule : Text} {padding : Padding} (asked : spec.maxGeneration = some rule)
    (denoted : Padding.Denotes rule padding) (value : FieldValue) :
    spec.pad value = (padding.padded? value.display).map fun text =>
      if text = value.display then (value, false) else (.text text, true) := by
  have active : given spec.maxGeneration = some rule :=
    given_eq_some_iff.mpr ⟨asked, denoted.rule_ne_nil⟩
  rw [pad, active]
  simp only [Padding.paddedBy?, Padding.parse?_eq_some_iff.mpr denoted]
  cases padding.padded? value.display <;> rfl

/-- Without a rule that can be read, a value stays as it is. -/
theorem pad_of_not_denotes
    (free : ¬ ∃ rule padding, spec.maxGeneration = some rule ∧ Padding.Denotes rule padding)
    (value : FieldValue) : spec.pad value = some (value, false) := by
  unfold pad
  split
  · next rule active =>
    obtain ⟨asked, -⟩ := given_eq_some_iff.mp active
    have unread : Padding.parse? rule = none :=
      Padding.parse?_eq_none_iff.mpr fun padding denoted => free ⟨rule, padding, asked, denoted⟩
    simp [Padding.paddedBy?, unread]
  · rfl

/-- Padding fails exactly for the values whose padded text is too large. -/
theorem pad_eq_none_iff : spec.pad value = none ↔ spec.Overfills value := by
  constructor
  · intro failed
    by_cases readable : ∃ rule padding, spec.maxGeneration = some rule ∧
        Padding.Denotes rule padding
    · obtain ⟨rule, padding, asked, denoted⟩ := readable
      rw [pad_of_denotes asked denoted, Option.map_eq_none_iff] at failed
      exact ⟨rule, padding, asked, denoted, Padding.padded?_eq_none_iff_lt_paddedSize.mp failed⟩
    · rw [pad_of_not_denotes readable] at failed
      contradiction
  · rintro ⟨rule, padding, asked, denoted, large⟩
    rw [pad_of_denotes asked denoted, Padding.padded?_eq_none_iff_lt_paddedSize.mpr large]
    rfl

/-- A value that lacks characters is replaced by its padded text, which is another one. -/
theorem pad_of_lacks {padding : Padding} (lacks : spec.Lacks value padding)
    {result : FieldValue × Bool} (padded : spec.pad value = some result) :
    result = (.text (padding.filled value.display), true) := by
  obtain ⟨rule, asked, denoted, short, fits⟩ := lacks
  rw [pad_of_denotes asked denoted, Option.map_eq_some_iff] at padded
  obtain ⟨text, given, rfl⟩ := padded
  obtain ⟨rfl, -⟩ := Padding.padded?_eq_some_iff.mp given
  have changed : padding.filled value.display ≠ value.display := by
    intro same
    have nonempty := Padding.filler_ne_nil (Padding.parse?_eq_some_iff.mpr denoted)
    have grown := Padding.length_le_length_filled nonempty fits
    rw [same] at grown
    omega
  exact if_neg changed

/-- A value that lacks nothing keeps its text and its type. -/
theorem pad_of_not_lacks (whole : ∀ padding, ¬ spec.Lacks value padding)
    {result : FieldValue × Bool} (padded : spec.pad value = some result) :
    result = (value, false) := by
  by_cases readable : ∃ rule padding, spec.maxGeneration = some rule ∧ Padding.Denotes rule padding
  · obtain ⟨rule, padding, asked, denoted⟩ := readable
    rw [pad_of_denotes asked denoted, Option.map_eq_some_iff] at padded
    obtain ⟨text, given, rfl⟩ := padded
    obtain ⟨rfl, -⟩ := Padding.padded?_eq_some_iff.mp given
    have unchanged : padding.filled value.display = value.display := by
      by_cases short : value.display.length < padding.length
      · exact Padding.filled_of_not_fits fun fits =>
          whole padding ⟨rule, asked, denoted, short, fits⟩
      · exact Padding.filled_of_le (Nat.le_of_not_lt short)
    exact if_pos unchanged
  · rw [pad_of_not_denotes readable] at padded
    exact (Option.some.inj padded).symm

end Padding

end FieldSpec

/-- A population has no results exactly when it comes to a field that is too large once padded. -/
theorem populate_eq_none_iff_overfills {specs : List FieldSpec} {known : FieldMap}
    {source : Source} :
    populate specs known source = none ↔
      ∃ index spec before, specs[index]? = some spec ∧
        populate (specs.take index) known source = some before ∧
        spec.Overfills (spec.resolve before.fields before.source).1.1 := by
  simp only [populate_eq_none_iff, FieldSpec.pad_eq_none_iff]

/-- The last specification of a name decides what the final fields hold under it. -/
theorem get?_fields_populate_of_last {specs : List FieldSpec} {known : FieldMap} {source : Source}
    {run : Population} {index : Nat} {spec : FieldSpec} {entry : PopulatedField}
    (ran : populate specs known source = some run) (present : specs[index]? = some spec)
    (result : run.resolved[index]? = some entry)
    (last : spec.id ∉ (specs.drop (index + 1)).map (·.id)) :
    run.fields.get? spec.id = some entry.value := by
  obtain ⟨before, own, moved, after, -, -, -, here, later, fields⟩ :=
    exists_populate_take ran present
  cases here.symm.trans result
  rw [fields]
  exact get?_populate_of_insert last later

/-- A population has no results exactly when it comes to a field whose text would be too large for
memory once it is padded. Otherwise every result says truly whether its value was padded. If the
value that the specification resolves to lacks characters, and the fillers for them fit in memory,
the result is the display text with exactly these fillers behind it; in every other case it is that
value. What the result holds is also held by the final fields, unless a later specification has the
same name. -/
theorem populate_pads (specs : List FieldSpec) (known : FieldMap) (source : Source) :
    (populate specs known source = none ↔
      ∃ index spec before, specs[index]? = some spec ∧
        populate (specs.take index) known source = some before ∧
        spec.Overfills (spec.resolve before.fields before.source).1.1) ∧
    ∀ run ∈ populate specs known source, ∀ (index : Nat) (spec : FieldSpec),
      specs[index]? = some spec →
      ∃ before entry, populate (specs.take index) known source = some before ∧
        run.resolved[index]? = some entry ∧ entry.id = spec.id ∧
        let value := (spec.resolve before.fields before.source).1.1
        (∀ padding, spec.Lacks value padding →
          entry.padded = true ∧
            entry.value = .text (value.display ++
              (List.replicate (padding.length - value.display.length) padding.filler).flatten) ∧
            padding.length ≤ entry.value.display.length) ∧
        ((∀ padding, ¬ spec.Lacks value padding) →
          entry.padded = false ∧ entry.value = value) ∧
        (spec.id ∉ (specs.drop (index + 1)).map (·.id) →
          run.fields.get? spec.id = some entry.value) := by
  refine ⟨populate_eq_none_iff_overfills, fun run ran index spec present => ?_⟩
  obtain ⟨before, entry, moved, -, front, -, step, result, -⟩ := exists_populate_take ran present
  obtain ⟨padded, named, -, -⟩ := FieldSpec.populate_eq_some_iff.mp step
  refine ⟨before, entry, front, result, named, ?_, ?_,
    get?_fields_populate_of_last ran present result⟩
  · intro padding lacks
    obtain ⟨value, flag⟩ := Prod.mk.inj (FieldSpec.pad_of_lacks lacks padded)
    obtain ⟨rule, -, denoted, -, fits⟩ := lacks
    have nonempty := Padding.filler_ne_nil (Padding.parse?_eq_some_iff.mpr denoted)
    rw [flag, value, ← Padding.filled_of_fits fits]
    exact ⟨rfl, rfl, Padding.length_le_length_filled nonempty fits⟩
  · intro whole
    obtain ⟨value, flag⟩ := Prod.mk.inj (FieldSpec.pad_of_not_lacks whole padded)
    exact ⟨flag, value⟩

/-- A word of three characters lacks two of them, and gets two fillers of two characters each. The
boolean before it is long enough, and what stands behind it is no padding rule. -/
theorem populate_pads_word :
    let spec : FieldSpec :=
      ⟨"last".toList, none, some "name[w2]".toList, none, some "(.-[05])".toList⟩
    let specs : List FieldSpec :=
      [⟨"flag".toList, some (.boolean true), none, none, some "(*[3])".toList⟩, spec,
        ⟨"flag".toList, none, none, none, some "*[9]".toList⟩]
    let known : FieldMap := .ofList [("name".toList, .text "Ann Lee".toList)]
    specs[1]? = some spec ∧ ∃ run before entry, populate specs known (.seeded 7) = some run ∧
      populate (specs.take 1) known (.seeded 7) = some before ∧
      spec.Lacks (spec.resolve before.fields before.source).1.1 ⟨".-".toList, 5⟩ ∧
      run.resolved[1]? = some entry ∧ entry.padded = true ∧
      entry.value = .text "Lee.-.-".toList ∧
      run.fields.get? "last".toList = some entry.value := by
  intro spec specs known
  have present : specs[1]? = some spec := rfl
  obtain ⟨run, ran⟩ : ∃ run, populate specs known (.seeded 7) = some run :=
    Option.isSome_iff_exists.mp (by decide +kernel)
  obtain ⟨before, entry, front, result, -, pads, -, final⟩ :=
    (populate_pads specs known (.seeded 7)).2 run ran 1 spec present
  have value : (spec.resolve before.fields before.source).1.1 = .text "Lee".toList := by
    have same : some before = populate (specs.take 1) known (.seeded 7) := front.symm
    cases same
    decide +kernel
  have denoted : Padding.Denotes "(.-[05])".toList ⟨".-".toList, 5⟩ :=
    Padding.parse?_eq_some_iff.mp (by decide)
  have lacks : spec.Lacks (spec.resolve before.fields before.source).1.1 ⟨".-".toList, 5⟩ := by
    rw [value]
    exact ⟨_, rfl, denoted, by decide, by decide⟩
  obtain ⟨padded, stored, -⟩ := pads _ lacks
  rw [value] at stored
  exact ⟨present, run, before, entry, ran, front, lacks, result, padded, stored.trans (by decide),
    final (by decide)⟩

/-- Not every value that lacks characters is padded, although the fillers for them fit in memory:
one byte of the value is too much. -/
theorem populate_pads_one_over :
    let spec : FieldSpec :=
      ⟨"x".toList, none, none, none, some "(b[9223372036854775808])".toList⟩
    let known : FieldMap := .ofList [("x".toList, .text "a".toList)]
    (spec.resolve known (.seeded 7)).1.1 = .text "a".toList ∧
      spec.Lacks (.text "a".toList) ⟨"b".toList, 2 ^ 63⟩ ∧
      populate [spec] known (.seeded 7) = none := by
  intro spec known
  have denoted : Padding.Denotes "(b[9223372036854775808])".toList ⟨"b".toList, 2 ^ 63⟩ :=
    Padding.parse?_eq_some_iff.mp (by decide)
  refine ⟨by decide, ⟨_, rfl, denoted, by decide, by decide⟩, ?_⟩
  exact Option.isNone_iff_eq_none.mp (by decide +kernel)

end FormFill
