import FormFill.Population
import FormFill.Random.ChaCha

/-! # Populating as overwriting

The results of a population are the entries that its specifications write. Written over the known
fields from first to last they give the final fields, and a specification sees the known fields with
the entries before its own written over them. There are no results only when the padding of a field
fails that the population comes to.
-/

namespace FormFill

namespace PopulatedField

/-- What a result writes into the fields: its value under its name. -/
def written (entry : PopulatedField) : Text × FieldValue := (entry.id, entry.value)

end PopulatedField

section Runs

variable {specs : List FieldSpec} {known : FieldMap} {source : Source} {run : Population}

/-- Every specification gives one result, under its own name. -/
theorem map_id_resolved_populate (ran : populate specs known source = some run) :
    run.resolved.map (·.id) = specs.map (·.id) := by
  induction specs generalizing known source run with
  | nil => rw [populate_nil_eq_some_iff.mp ran]; rfl
  | cons spec rest ih =>
    obtain ⟨entry, moved, after, step, later, rfl⟩ := populate_cons_eq_some_iff.mp ran
    obtain ⟨-, named, -, -⟩ := FieldSpec.populate_eq_some_iff.mp step
    rw [List.map_cons, List.map_cons, named, ih later]

theorem length_resolved_populate (ran : populate specs known source = some run) :
    run.resolved.length = specs.length := by
  simpa using congrArg List.length (map_id_resolved_populate ran)

/-- The names that the results write are those of the specifications. -/
theorem map_fst_written_populate (ran : populate specs known source = some run) :
    (run.resolved.map (·.written)).map (·.1) = specs.map (·.id) :=
  List.map_map.trans (map_id_resolved_populate ran)

theorem fields_populate (ran : populate specs known source = some run) :
    run.fields = known.overwrite (run.resolved.map (·.written)) := by
  induction specs generalizing known source run with
  | nil => rw [populate_nil_eq_some_iff.mp ran]; rfl
  | cons spec rest ih =>
    obtain ⟨entry, moved, after, step, later, rfl⟩ := populate_cons_eq_some_iff.mp ran
    obtain ⟨-, named, -, -⟩ := FieldSpec.populate_eq_some_iff.mp step
    have overwritten := ih later
    rw [← named] at overwritten
    exact overwritten

/-- A run has populated each of its fields from the fields and the source that those before it
leave, which have the results that they have alone, and has gone on with the others from there. -/
theorem exists_populate_take {index : Nat} {spec : FieldSpec}
    (ran : populate specs known source = some run) (present : specs[index]? = some spec) :
    ∃ before entry moved after, populate (specs.take index) known source = some before ∧
      before.resolved = run.resolved.take index ∧
      spec.populate before.fields before.source = some (entry, moved) ∧
      run.resolved[index]? = some entry ∧
      populate (specs.drop (index + 1)) (before.fields.insert spec.id entry.value) moved =
        some after ∧
      run.fields = after.fields := by
  obtain ⟨bound, here⟩ := List.getElem?_eq_some_iff.mp present
  have split : specs = specs.take index ++ spec :: specs.drop (index + 1) := by
    rw [← here, ← List.drop_eq_getElem_cons bound, List.take_append_drop]
  rw [split] at ran
  obtain ⟨before, entry, moved, after, front, step, later, rfl⟩ := populate_split_eq_some_iff.mp ran
  have length : before.resolved.length = index := by
    rw [length_resolved_populate front, List.length_take_of_le (Nat.le_of_lt bound)]
  refine ⟨before, entry, moved, after, front, ?_, step, ?_, later, rfl⟩
  · rw [List.take_left' length]
  · rw [← length, List.getElem?_append_right (Nat.le_refl _), Nat.sub_self]
    rfl

/-- From where a run has come to, it goes on with the next specification. -/
theorem populate_take_succ {index : Nat} {spec : FieldSpec} {before : Population}
    (reached : populate (specs.take index) known source = some before)
    (present : specs[index]? = some spec) :
    populate (specs.take (index + 1)) known source =
      (spec.populate before.fields before.source).map fun step =>
        ⟨before.resolved ++ [step.1], before.fields.insert step.1.id step.1.value, step.2⟩ := by
  rw [List.take_add_one, present, populate_append, reached]
  cases step : spec.populate before.fields before.source <;> simp [populate, step]

/-- Under a name that some specification has, the last result of that name is held in the end; every
other name keeps what was known under it. -/
theorem get?_fields_populate (ran : populate specs known source = some run) (name : Text) :
    run.fields.get? name =
      if name ∈ specs.map (·.id) then
        NameMap.find? name (run.resolved.map (·.written)).reverse
      else known.get? name := by
  rw [fields_populate ran, NameMap.get?_overwrite]
  have names : (NameMap.find? name (run.resolved.map (·.written)).reverse).isSome ↔
      name ∈ specs.map (·.id) := by
    rw [NameMap.isSome_find?_iff, List.map_reverse, List.mem_reverse, map_fst_written_populate ran]
  split
  · next member =>
    obtain ⟨value, found⟩ := Option.isSome_iff_exists.mp (names.mpr member)
    simp [found]
  · next absent =>
    have missing := Option.not_isSome_iff_eq_none.mp (mt names.mp absent)
    simp [missing]

/-- Of two runs of which each shows that the other comes to its end, both do so or neither does. -/
theorem eq_none_iff_of_exists {left right : Option Population}
    (forth : ∀ one, left = some one → ∃ other, right = some other)
    (back : ∀ other, right = some other → ∃ one, left = some one) :
    left = none ↔ right = none := by
  simp only [Option.eq_none_iff_forall_ne_some]
  constructor
  · intro stopped other ran
    obtain ⟨one, reran⟩ := back other ran
    exact stopped one reran
  · intro stopped one ran
    obtain ⟨other, reran⟩ := forth one ran
    exact stopped other reran

/-- There are no results exactly when the padding of a field fails that the run comes to. -/
theorem populate_eq_none_iff :
    populate specs known source = none ↔
      ∃ index spec before, specs[index]? = some spec ∧
        populate (specs.take index) known source = some before ∧
        spec.pad (spec.resolve before.fields before.source).1.1 = none := by
  constructor
  · intro stopped
    induction specs generalizing known source with
    | nil => contradiction
    | cons spec rest ih =>
      rcases populate_cons_eq_none_iff.mp stopped with failed | ⟨entry, moved, step, later⟩
      · exact ⟨0, spec, ⟨[], known, source⟩, rfl, rfl, FieldSpec.populate_eq_none_iff.mp failed⟩
      · obtain ⟨index, other, before, present, front, full⟩ := ih later
        refine ⟨index + 1, other, ⟨entry :: before.resolved, before.fields, before.source⟩,
          present, ?_, full⟩
        exact populate_cons_eq_some_iff.mpr ⟨entry, moved, before, step, front, rfl⟩
  · rintro ⟨index, spec, before, present, front, full⟩
    refine Option.eq_none_iff_forall_ne_some.mpr fun run ran => ?_
    obtain ⟨reached, entry, moved, -, alone, -, step, -⟩ := exists_populate_take ran present
    cases front.symm.trans alone
    rw [FieldSpec.populate_eq_none_iff.mpr full] at step
    contradiction

end Runs

/-- A population overwrites the known fields in order. It has one result for each specification,
under the name of that specification; the final fields are the known ones overwritten by the
results, so they hold the known names and the populated ones, the last result of each populated name
and the known value of every other; and each result is that of its specification under the known
fields overwritten by the results before it. A population without results has come to a field for
whose padded value there is no room. -/
theorem populate_overwrites (specs : List FieldSpec) (known : FieldMap) (source : Source) :
    (∀ run ∈ populate specs known source,
      run.resolved.map (·.id) = specs.map (·.id) ∧
      run.fields = known.overwrite (run.resolved.map (·.written)) ∧
      (∀ name, (run.fields.get? name).isSome ↔
        (known.get? name).isSome ∨ name ∈ specs.map (·.id)) ∧
      (∀ name, run.fields.get? name =
        if name ∈ specs.map (·.id) then
          NameMap.find? name (run.resolved.map (·.written)).reverse
        else known.get? name) ∧
      ∀ (index : Nat) (spec : FieldSpec), specs[index]? = some spec →
        ∃ before entry moved, populate (specs.take index) known source = some before ∧
          spec.populate (known.overwrite ((run.resolved.take index).map (·.written)))
            before.source = some (entry, moved) ∧
          run.resolved[index]? = some entry) ∧
    (populate specs known source = none ↔
      ∃ index spec before, specs[index]? = some spec ∧
        populate (specs.take index) known source = some before ∧
        spec.pad (spec.resolve before.fields before.source).1.1 = none) := by
  refine ⟨fun run ran => ⟨map_id_resolved_populate ran, fields_populate ran, ?_,
    get?_fields_populate ran, ?_⟩, populate_eq_none_iff⟩
  · intro name
    rw [fields_populate ran, NameMap.get?_overwrite, Option.isSome_or, Bool.or_eq_true,
      NameMap.isSome_find?_iff, List.map_reverse, List.mem_reverse, map_fst_written_populate ran]
    exact or_comm
  · intro index spec present
    obtain ⟨before, entry, moved, -, front, earlier, step, result, -⟩ :=
      exists_populate_take ran present
    refine ⟨before, entry, moved, front, ?_, result⟩
    rw [← earlier, ← fields_populate front]
    exact step

/-- A field that refers to its known value and is then filled a second time, from its first result;
what was known beside it stays. -/
theorem populate_overwrites_repeated :
    let again : FieldSpec := ⟨"code".toList, none, some "code[ch1]".toList, none, some "(0[3])".toList⟩
    let specs : List FieldSpec :=
      [⟨"code".toList, none, none, some "(code)-(rn[2])".toList, none⟩, again]
    let known : FieldMap :=
      .ofList [("code".toList, .ofInt 5), ("city".toList, .text "Rome".toList)]
    ∃ run before entry moved, populate specs known (.seeded 7) = some run ∧
      run.fields = known.overwrite (run.resolved.map (·.written)) ∧
      run.fields.get? "city".toList = some (.text "Rome".toList) ∧
      populate (specs.take 1) known (.seeded 7) = some before ∧
      again.populate (known.overwrite ((run.resolved.take 1).map (·.written))) before.source =
        some (entry, moved) ∧
      run.resolved[1]? = some entry := by
  intro again specs known
  obtain ⟨run, ran⟩ : ∃ run, populate specs known (.seeded 7) = some run :=
    Option.isSome_iff_exists.mp (by decide +kernel)
  obtain ⟨-, fields, -, held, steps⟩ := (populate_overwrites specs known (.seeded 7)).1 run ran
  obtain ⟨before, entry, moved, front, step, result⟩ := steps 1 again rfl
  have kept : run.fields.get? "city".toList = known.get? "city".toList :=
    (held _).trans (if_neg (by decide))
  exact ⟨run, before, entry, moved, ran, fields, kept.trans (by decide), front, step, result⟩

end FormFill
