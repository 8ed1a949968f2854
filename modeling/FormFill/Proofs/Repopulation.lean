import FormFill.Proofs.FieldReads
import FormFill.Proofs.Overwriting
import FormFill.Random.ChaCha

/-! # Populating again

When no rule reads its own field or one that is populated later, populating the results once more
from the same random source changes nothing. A rule then sees in the results what it saw the first
time, and a field that keeps its value keeps the padded one, which is long enough.
-/

namespace FormFill

open FieldMap (AgreeOn)

namespace FieldSpec

/-- A padded value is not padded again. -/
theorem pad_pad {spec : FieldSpec} {value padded : FieldValue} {changed : Bool}
    (done : spec.pad value = some (padded, changed)) : spec.pad padded = some (padded, false) := by
  unfold pad at done ⊢
  cases active : given spec.maxGeneration with
  | none => rfl
  | some rule =>
    simp only [active, bind, Option.bind_eq_some_iff, pure, Option.some.injEq] at done
    obtain ⟨text, filled, result⟩ := done
    by_cases same : text = value.display
    · cases (if_pos same).symm.trans result
      simp [filled, same]
    · cases (if_neg same).symm.trans result
      have kept : Padding.paddedBy? rule text = some text := Padding.paddedBy?_paddedBy? filled
      simp [FieldValue.display, kept]

/-- Under fields that agree with the first ones on what the rule reads and hold the first result, a
specification gives that result once more and draws the same words. -/
theorem populate_of_agree {spec : FieldSpec} {first again : FieldMap} {source moved : Source}
    {entry : PopulatedField} (step : spec.populate first source = some (entry, moved))
    (agree : AgreeOn spec.rule.reads again first) (held : again.get? spec.id = some entry.value) :
    ∃ next, spec.populate again source = some (next, moved) ∧ next.id = spec.id ∧
      next.value = entry.value := by
  obtain ⟨filled, -, -, rfl⟩ := populate_eq_some_iff.mp step
  by_cases kept : spec.rule = .kept
  · -- The value that is kept now is the padded one, which is not padded again.
    have value : (spec.resolve again source).1.1 = entry.value := by
      rw [resolve_eq_rule, kept, FieldRule.value_resolve_kept, held, Option.getD_some]
    have moved : ∀ fields, (spec.resolve fields source).2 = source := fun fields => by
      rw [resolve_eq_rule, kept, FieldRule.source_resolve_kept]
    refine ⟨⟨spec.id, entry.value, (spec.resolve again source).1.2, false⟩, ?_, rfl, rfl⟩
    rw [moved first]
    refine populate_eq_some_iff.mpr ⟨?_, rfl, rfl, (moved again).symm⟩
    rw [value]
    exact pad_pad filled
  · have same : spec.resolve again source = spec.resolve first source := by
      rw [resolve_eq_rule, resolve_eq_rule, FieldRule.resolve_congr kept agree]
    obtain ⟨-, named, -, -⟩ := populate_eq_some_iff.mp step
    refine ⟨entry, ?_, named, rfl⟩
    rw [populate, same, ← populate, step]

end FieldSpec

section Runs

variable {spec : FieldSpec} {rest specs : List FieldSpec} {known : FieldMap} {source moved : Source}
  {entry : PopulatedField} {run : Population}

/-- A field that no specification names keeps its value. -/
theorem get?_populate_of_notMem {name : Text} (absent : name ∉ specs.map (·.id))
    (ran : populate specs known source = some run) : run.fields.get? name = known.get? name := by
  rw [get?_fields_populate ran, if_neg absent]

/-- Unless a later specification has its name, a result stays in the fields. -/
theorem get?_populate_of_insert (fresh : spec.id ∉ rest.map (·.id))
    (later : populate rest (known.insert spec.id entry.value) moved = some run) :
    run.fields.get? spec.id = some entry.value :=
  (get?_populate_of_notMem fresh later).trans (NameMap.get?_insert_self _ _ _)

/-- What the first rule looked up is still there in the results, when nothing overwrote it. -/
theorem agreeOn_populate_cons (own : spec.id ∉ spec.rule.reads)
    (ahead : ∀ next ∈ rest, next.id ∉ spec.rule.reads)
    (ran : populate (spec :: rest) known source = some run) :
    AgreeOn spec.rule.reads run.fields known := by
  intro name read
  refine get?_populate_of_notMem (fun member => ?_) ran
  obtain ⟨other, present, rfl⟩ := List.mem_map.mp member
  rcases List.mem_cons.mp present with rfl | later
  · exact own read
  · exact ahead other later read

end Runs

/-- Populating the results from the same source gives the same results, when the names are distinct
and no rule reads its own field or one that is populated later. -/
theorem populate_again {specs : List FieldSpec} (distinct : (specs.map (·.id)).Nodup)
    (own : ∀ spec ∈ specs, spec.id ∉ spec.rule.reads)
    (later : specs.Pairwise fun spec next => next.id ∉ spec.rule.reads)
    {known : FieldMap} {source : Source} {first : Population}
    (ran : populate specs known source = some first) :
    ∃ again, populate specs first.fields source = some again ∧
      again.fields = first.fields ∧
      again.resolved.map (fun entry => (entry.id, entry.value)) =
        first.resolved.map (fun entry => (entry.id, entry.value)) := by
  induction specs generalizing known source first with
  | nil =>
    cases populate_nil_eq_some_iff.mp ran
    exact ⟨_, rfl, rfl, rfl⟩
  | cons spec rest ih =>
    obtain ⟨fresh, distinct⟩ := List.nodup_cons.mp distinct
    obtain ⟨ahead, later⟩ := List.pairwise_cons.mp later
    have agree := agreeOn_populate_cons (own spec List.mem_cons_self) ahead ran
    obtain ⟨entry, moved, after, step, behind, rfl⟩ := populate_cons_eq_some_iff.mp ran
    have held : after.fields.get? spec.id = some entry.value := get?_populate_of_insert fresh behind
    obtain ⟨-, named, -, -⟩ := FieldSpec.populate_eq_some_iff.mp step
    obtain ⟨next, again, renamed, value⟩ := FieldSpec.populate_of_agree step agree held
    obtain ⟨others, ran, sameFields, sameEntries⟩ := ih distinct
      (fun other member => own other (List.mem_cons_of_mem _ member)) later behind
    -- The first result is written over itself, so the others start from the same fields.
    rw [← NameMap.insert_eq_self held, ← value] at ran
    refine ⟨_, populate_cons_eq_some_iff.mpr ⟨next, moved, others, again, ran, rfl⟩,
      sameFields, ?_⟩
    have head : (next.id, next.value) = (entry.id, entry.value) := by rw [renamed, named, value]
    exact List.cons_eq_cons.mpr ⟨head, sameEntries⟩

/-- A padded number, a field that draws digits and refers back, and one that depends on it. -/
theorem populate_again_seeded :
    let specs : List FieldSpec :=
      [⟨"age".toList, none, none, none, some "(-[6])".toList⟩,
        ⟨"code".toList, none, none, some "(age[ch1-2])x(rn[4])".toList, some "(0[9])".toList⟩,
        ⟨"note".toList, none, some "code[w1]".toList, none, none⟩]
    let known : FieldMap := .ofList [("age".toList, .ofInt 42)]
    (specs.map (·.id)).Nodup ∧ (∀ spec ∈ specs, spec.id ∉ spec.rule.reads) ∧
      (specs.Pairwise fun spec next => next.id ∉ spec.rule.reads) ∧
      ∃ first again, populate specs known (.seeded 7) = some first ∧
        populate specs first.fields (.seeded 7) = some again ∧ again.fields = first.fields ∧
        again.resolved.map (fun entry => (entry.id, entry.value)) =
          first.resolved.map (fun entry => (entry.id, entry.value)) := by
  intro specs known
  have distinct : (specs.map (·.id)).Nodup := by decide
  have own : ∀ spec ∈ specs, spec.id ∉ spec.rule.reads := by decide
  have later : specs.Pairwise fun spec next => next.id ∉ spec.rule.reads := by decide
  obtain ⟨first, ran⟩ : ∃ first, populate specs known (.seeded 7) = some first :=
    Option.isSome_iff_exists.mp (by decide +kernel)
  obtain ⟨again, rerun, same⟩ := populate_again distinct own later ran
  exact ⟨distinct, own, later, first, again, ran, rerun, same⟩

end FormFill
