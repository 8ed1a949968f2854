import FormFill.Proofs.Drawing
import FormFill.Proofs.Overwriting
import FormFill.Random.ChaCha

/-! # Exchanging neighbours

Two specifications of different fields, neither of which looks up the other's, meet only in the
random source. When at most one of them draws from it, their order does not matter: both give what
they give from where the pair starts, and the specifications after them start from one state.
-/

namespace FormFill

open FieldMap (agreeOn_insert)

namespace FieldSpec

/-- What is written into a field that a specification does not look up makes no difference to it. -/
theorem populate_insert {spec : FieldSpec} {name : Text} (different : name ≠ spec.id)
    (unread : name ∉ spec.rule.reads) (fields : FieldMap) (value : FieldValue) (source : Source) :
    spec.populate (fields.insert name value) source = spec.populate fields source :=
  populate_congr (agreeOn_insert (notMem_reads different unread) fields value) source

/-- A specification that draws nothing leaves the source where it is, and gives one result over
every source. -/
theorem populate_of_not_draws {spec : FieldSpec} (silent : ¬ spec.Draws) {fields : FieldMap}
    {source moved : Source} {entry : PopulatedField}
    (step : spec.populate fields source = some (entry, moved)) :
    moved = source ∧ ∀ other, spec.populate fields other = some (entry, other) := by
  have quiet : spec.demand = 0 := Classical.not_not.mp (mt draws_iff.mpr silent)
  obtain ⟨padded, named, origin, rfl⟩ := populate_eq_some_iff.mp step
  refine ⟨(source_resolve_eq_iff fields source).mpr quiet, fun other => ?_⟩
  rw [populate_eq_some_iff, resolve_of_demand_eq_zero quiet fields other source]
  exact ⟨padded, named, origin, rfl⟩

end FieldSpec

section Exchange

variable {first second : FieldSpec} (different : first.id ≠ second.id)
  (firstUnread : first.id ∉ second.rule.reads) (secondUnread : second.id ∉ first.rule.reads)
  (calm : ¬ (first.Draws ∧ second.Draws))

include different firstUnread secondUnread calm

/-- A pair of independent specifications, at most one of which draws, gives the same in either
order. -/
theorem populate_pair_exchange {fields : FieldMap} {source moved left : Source}
    {entry twin : PopulatedField} (step : first.populate fields source = some (entry, moved))
    (next : second.populate (fields.insert first.id entry.value) moved = some (twin, left)) :
    ∃ between, second.populate fields source = some (twin, between) ∧
      first.populate (fields.insert second.id twin.value) between = some (entry, left) := by
  rw [FieldSpec.populate_insert different firstUnread] at next
  simp only [FieldSpec.populate_insert different.symm secondUnread]
  by_cases draws : first.Draws
  · obtain ⟨rfl, anywhere⟩ := FieldSpec.populate_of_not_draws (fun both => calm ⟨draws, both⟩) next
    exact ⟨source, anywhere source, step⟩
  · obtain ⟨rfl, anywhere⟩ := FieldSpec.populate_of_not_draws draws step
    exact ⟨left, next, anywhere left⟩

/-- When a run comes to its end, so does the one with the pair exchanged: both pairs leave one
state, so everything behind them is populated alike. -/
theorem exists_populate_exchanged {front back : List FieldSpec} {known : FieldMap} {source : Source}
    {run : Population} (ran : populate (front ++ [first, second] ++ back) known source = some run) :
    ∃ exchanged, populate (front ++ [second, first] ++ back) known source = some exchanged ∧
      exchanged.fields = run.fields ∧ exchanged.source = run.source ∧
      ∃ before entry twin after, before.length = front.length ∧
        entry.id = first.id ∧ twin.id = second.id ∧
        run.resolved = before ++ [entry, twin] ++ after ∧
        exchanged.resolved = before ++ [twin, entry] ++ after := by
  simp only [List.append_assoc, List.cons_append, List.nil_append] at ran ⊢
  obtain ⟨start, entry, moved, behind, begun, step, others, rfl⟩ :=
    populate_split_eq_some_iff.mp ran
  obtain ⟨twin, left, after, next, later, rfl⟩ := populate_cons_eq_some_iff.mp others
  obtain ⟨between, ahead, follow⟩ :=
    populate_pair_exchange different firstUnread secondUnread calm step next
  rw [NameMap.insert_comm _ different] at later
  have exchanged := populate_split_eq_some_iff.mpr ⟨start, twin, between, _, begun, ahead,
    populate_cons_eq_some_iff.mpr ⟨entry, left, after, follow, later, rfl⟩, rfl⟩
  obtain ⟨-, named, -, -⟩ := FieldSpec.populate_eq_some_iff.mp step
  obtain ⟨-, twinNamed, -, -⟩ := FieldSpec.populate_eq_some_iff.mp next
  exact ⟨_, exchanged, rfl, rfl, start.resolved, entry, twin, after.resolved,
    length_resolved_populate begun, named, twinNamed, rfl, rfl⟩

/-- Neighbours of different names, neither of which looks up the other's and at most one of which
draws, can be exchanged: both populations come to their end or neither does, the final fields stay
the same, and of the results only these two change places. -/
theorem populate_exchange (front back : List FieldSpec) (known : FieldMap) (source : Source) :
    let run := populate (front ++ [first, second] ++ back) known source
    let exchanged := populate (front ++ [second, first] ++ back) known source
    (run = none ↔ exchanged = none) ∧
      ∀ one ∈ run, ∀ other ∈ exchanged, other.fields = one.fields ∧ other.source = one.source ∧
        ∃ before entry twin after, before.length = front.length ∧
          entry.id = first.id ∧ twin.id = second.id ∧
          one.resolved = before ++ [entry, twin] ++ after ∧
          other.resolved = before ++ [twin, entry] ++ after := by
  intro run exchanged
  constructor
  · apply eq_none_iff_of_exists
    · intro one ran
      obtain ⟨other, swapped, -⟩ :=
        exists_populate_exchanged different firstUnread secondUnread calm ran
      exact ⟨other, swapped⟩
    · intro other ran
      obtain ⟨one, restored, -⟩ := exists_populate_exchanged different.symm secondUnread firstUnread
        (fun both => calm both.symm) ran
      exact ⟨one, restored⟩
  · intro one ran other reran
    obtain ⟨same, swapped, result⟩ :=
      exists_populate_exchanged different firstUnread secondUnread calm ran
    cases swapped.symm.trans reran
    exact result

end Exchange

/-- A field that draws behind another that does, next to a padded one that keeps a number; the last
field looks all of them up. -/
theorem populate_exchange_keeping :
    let code : FieldSpec := ⟨"code".toList, none, none, some "(name[w1])-(rn[3])".toList, none⟩
    let age : FieldSpec := ⟨"age".toList, none, none, some [], some "(0[4])".toList⟩
    let front : List FieldSpec := [⟨"name".toList, none, none, some "(rc[4]) X".toList, none⟩]
    let back : List FieldSpec :=
      [⟨"note".toList, none, none, some "(age)/(code)/(rc[2])".toList, none⟩]
    let known : FieldMap := .ofList [("age".toList, .ofInt 42)]
    (code.id ≠ age.id ∧ code.id ∉ age.rule.reads ∧ age.id ∉ code.rule.reads ∧
      ¬ (code.Draws ∧ age.Draws)) ∧
    ∃ run exchanged, populate (front ++ [code, age] ++ back) known (.seeded 7) = some run ∧
      populate (front ++ [age, code] ++ back) known (.seeded 7) = some exchanged ∧
      exchanged.fields = run.fields ∧ exchanged.source = run.source ∧
      ∃ before entry twin after, before.length = front.length ∧
        entry.id = code.id ∧ twin.id = age.id ∧
        run.resolved = before ++ [entry, twin] ++ after ∧
        exchanged.resolved = before ++ [twin, entry] ++ after := by
  intro code age front back known
  have different : code.id ≠ age.id := by decide
  have codeUnread : code.id ∉ age.rule.reads := by decide
  have ageUnread : age.id ∉ code.rule.reads := by decide
  have calm : ¬ (code.Draws ∧ age.Draws) := by decide
  obtain ⟨whole, inEither⟩ :=
    populate_exchange different codeUnread ageUnread calm front back known (.seeded 7)
  obtain ⟨run, ran⟩ :
      ∃ run, populate (front ++ [code, age] ++ back) known (.seeded 7) = some run :=
    Option.isSome_iff_exists.mp (by decide +kernel)
  obtain ⟨exchanged, reran⟩ :
      ∃ run, populate (front ++ [age, code] ++ back) known (.seeded 7) = some run := by
    refine Option.ne_none_iff_exists'.mp (mt whole.mpr ?_)
    rw [ran]
    exact Option.some_ne_none run
  exact ⟨⟨different, codeUnread, ageUnread, calm⟩, run, exchanged, ran, reran,
    inEither run ran exchanged reran⟩

end FormFill
