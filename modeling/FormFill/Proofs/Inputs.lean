import FormFill.Proofs.FieldReads
import FormFill.Proofs.Overwriting
import FormFill.Random.ChaCha

/-! # What a population takes from the known fields

Of the known fields a row of specifications sees those that one of them looks up while none before
it has filled them. Known fields that agree there give the same results, and final fields that
differ at most where nothing was populated and the known fields differed before.
-/

namespace FormFill

open FieldMap (AgreeOn)

namespace FieldSpec

/-- A name that some specification looks up while none before it has filled it. -/
def IsInput (specs : List FieldSpec) (name : Text) : Prop :=
  ∃ front spec back, specs = front ++ spec :: back ∧ name ∈ spec.reads ∧ name ∉ front.map (·.id)

/-- The inputs of a row of specifications, in the order in which they are looked up. -/
def inputs : List FieldSpec → List Text
  | [] => []
  | spec :: rest => spec.reads ++ (inputs rest).filter (· ≠ spec.id)

theorem mem_inputs_iff {specs : List FieldSpec} {name : Text} :
    name ∈ inputs specs ↔ IsInput specs name := by
  induction specs with
  | nil =>
    constructor
    · intro member
      contradiction
    · rintro ⟨front, spec, back, whole, -, -⟩
      exact absurd (List.append_eq_nil_iff.mp whole.symm).2 (List.cons_ne_nil _ _)
  | cons first rest ih =>
    constructor
    · intro member
      rcases List.mem_append.mp member with read | later
      · exact ⟨[], first, rest, rfl, read, List.not_mem_nil⟩
      · obtain ⟨inRest, other⟩ := List.mem_filter.mp later
        obtain ⟨front, spec, back, rfl, read, unfilled⟩ := ih.mp inRest
        exact ⟨first :: front, spec, back, rfl, read, by simpa [unfilled] using other⟩
    · rintro ⟨front, spec, back, whole, read, unfilled⟩
      cases front with
      | nil =>
        obtain ⟨rfl, rfl⟩ := List.cons.inj whole
        exact List.mem_append_left _ read
      | cons head front =>
        obtain ⟨rfl, rfl⟩ := List.cons.inj whole
        obtain ⟨other, unfilled⟩ := not_or.mp (mt List.mem_cons.mpr unfilled)
        have inRest := ih.mpr ⟨front, spec, back, rfl, read, unfilled⟩
        exact List.mem_append_right _ (List.mem_filter.mpr ⟨inRest, by simpa using other⟩)

end FieldSpec

/-- Under known fields that agree on the inputs, a run comes to its end with the same results and
leaves the source in one place. -/
theorem exists_populate_of_agree {specs : List FieldSpec} {left right : FieldMap}
    (agree : AgreeOn (FieldSpec.inputs specs) left right) {source : Source} {run : Population}
    (ran : populate specs right source = some run) :
    ∃ other, populate specs left source = some other ∧ other.resolved = run.resolved ∧
      other.source = run.source := by
  induction specs generalizing left right source run with
  | nil =>
    cases populate_nil_eq_some_iff.mp ran
    exact ⟨_, rfl, rfl, rfl⟩
  | cons spec rest ih =>
    obtain ⟨entry, moved, after, step, later, rfl⟩ := populate_cons_eq_some_iff.mp ran
    have first : spec.populate left source = spec.populate right source :=
      FieldSpec.populate_congr (agree.mono (List.subset_append_left _ _)) source
    -- The others see the first result alike, so they need agreement on their other inputs only.
    have unfilled : AgreeOn ((FieldSpec.inputs rest).filter (· ≠ spec.id)) left right :=
      agree.mono (List.subset_append_right _ _)
    obtain ⟨other, ran, sameResolved, sameSource⟩ := ih (unfilled.insert entry.value) later
    exact ⟨_, populate_cons_eq_some_iff.mpr ⟨entry, moved, other, first.trans step, ran, rfl⟩,
      congrArg (entry :: ·) sameResolved, sameSource⟩

/-- Under known fields that hold the same under every input, a population comes to its end or does
not alike. It has the same results, and its final fields hold the same under every populated name
and wherever the known fields did. -/
theorem populate_of_same_inputs {specs : List FieldSpec} {left right : FieldMap}
    (same : ∀ name, FieldSpec.IsInput specs name → left.get? name = right.get? name)
    (source : Source) :
    let run := populate specs left source
    let other := populate specs right source
    (run = none ↔ other = none) ∧
      ∀ one ∈ run, ∀ twin ∈ other, one.resolved = twin.resolved ∧ one.source = twin.source ∧
        ∀ name, name ∈ specs.map (·.id) ∨ left.get? name = right.get? name →
          one.fields.get? name = twin.fields.get? name := by
  intro run other
  have agree : AgreeOn (FieldSpec.inputs specs) left right :=
    fun name member => same name (FieldSpec.mem_inputs_iff.mp member)
  have turned : AgreeOn (FieldSpec.inputs specs) right left :=
    fun name member => (agree name member).symm
  constructor
  · apply eq_none_iff_of_exists
    · intro one ran
      obtain ⟨twin, reran, -⟩ := exists_populate_of_agree turned ran
      exact ⟨twin, reran⟩
    · intro twin ran
      obtain ⟨one, reran, -⟩ := exists_populate_of_agree agree ran
      exact ⟨one, reran⟩
  · intro one ran twin reran
    obtain ⟨_, again, sameResolved, sameSource⟩ := exists_populate_of_agree agree reran
    cases again.symm.trans ran
    refine ⟨sameResolved, sameSource, fun name shared => ?_⟩
    rw [get?_fields_populate ran, get?_fields_populate reran, sameResolved]
    by_cases populated : name ∈ specs.map (·.id)
    · rw [if_pos populated, if_pos populated]
    · rw [if_neg populated, if_neg populated]
      exact shared.resolve_left populated

/-- The fields differ under a name that is filled before it is looked up, under one that a rule in
disuse mentions, and under one that nobody looks up. The last specification keeps a missing
field. -/
theorem populate_of_same_inputs_filled :
    let specs : List FieldSpec :=
      [⟨"code".toList, none, none, some "(name[ch1])(rn[3])(x[2])".toList, none⟩,
        ⟨"ref".toList, none, some "code[ch2-4]".toList, some "(unused)".toList, some "(0[6])".toList⟩,
        ⟨"note".toList, none, none, none, none⟩]
    let left : FieldMap := .ofList [("name".toList, .text "Ada".toList), ("code".toList, .ofInt 5),
      ("unused".toList, .boolean true)]
    let right : FieldMap := .ofList [("name".toList, .text "Ada".toList), ("city".toList, .ofInt 7)]
    (∀ name, FieldSpec.IsInput specs name → left.get? name = right.get? name) ∧
    ∃ one twin, populate specs left (.seeded 7) = some one ∧
      populate specs right (.seeded 7) = some twin ∧ one.resolved = twin.resolved ∧
      one.fields.get? "code".toList = twin.fields.get? "code".toList ∧
      one.fields.get? "x".toList = twin.fields.get? "x".toList := by
  intro specs left right
  have agree : AgreeOn (FieldSpec.inputs specs) left right := by decide
  have same : ∀ name, FieldSpec.IsInput specs name → left.get? name = right.get? name :=
    fun name input => agree name (FieldSpec.mem_inputs_iff.mpr input)
  obtain ⟨one, ran⟩ : ∃ one, populate specs left (.seeded 7) = some one :=
    Option.isSome_iff_exists.mp (by decide +kernel)
  obtain ⟨twin, reran⟩ : ∃ twin, populate specs right (.seeded 7) = some twin :=
    Option.isSome_iff_exists.mp (by decide +kernel)
  obtain ⟨sameResolved, -, sameFields⟩ :=
    (populate_of_same_inputs same (.seeded 7)).2 one ran twin reran
  exact ⟨same, one, twin, ran, reran, sameResolved, sameFields _ (.inl (by decide)),
    sameFields _ (.inr (by decide))⟩

end FormFill
