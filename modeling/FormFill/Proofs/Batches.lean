import FormFill.Proofs.Drawing
import FormFill.Random.ChaCha

/-! # Populating in batches

A row of specifications that asks for no random character leaves the random source where it is, and
every other row moves it. Behind a batch that draws nothing, a second batch can therefore start from
a fresh source of the same seed: both batches give what the whole row gives at once.
-/

namespace FormFill

/-- A population never takes words back. -/
theorem drawn_le_drawn_populate {specs : List FieldSpec} {known : FieldMap} {source : Source}
    {run : Population} (ran : populate specs known source = some run) :
    source.drawn ≤ run.source.drawn := by
  induction specs generalizing known source run with
  | nil =>
    cases populate_nil_eq_some_iff.mp ran
    exact Nat.le_refl _
  | cons spec rest ih =>
    obtain ⟨entry, moved, after, step, later, rfl⟩ := populate_cons_eq_some_iff.mp ran
    obtain ⟨-, -, -, rfl⟩ := FieldSpec.populate_eq_some_iff.mp step
    have here := spec.le_drawn_resolve known source
    have behind := ih later
    simp only
    omega

/-- Specifications that ask for no random character leave the source where it is. -/
theorem source_populate_of_quiet {specs : List FieldSpec}
    (quiet : ∀ spec ∈ specs, spec.demand = 0) {known : FieldMap} {source : Source}
    {run : Population} (ran : populate specs known source = some run) : run.source = source := by
  induction specs generalizing known run with
  | nil => rw [populate_nil_eq_some_iff.mp ran]
  | cons spec rest ih =>
    obtain ⟨entry, moved, after, step, later, rfl⟩ := populate_cons_eq_some_iff.mp ran
    obtain ⟨-, -, -, rfl⟩ := FieldSpec.populate_eq_some_iff.mp step
    have here : (spec.resolve known source).2 = source :=
      (FieldSpec.source_resolve_eq_iff known source).mpr (quiet spec List.mem_cons_self)
    rw [here] at later
    change after.source = source
    exact ih (fun other member => quiet other (List.mem_cons_of_mem _ member)) later

/-- Whatever is known, a population draws nothing exactly when no active rule asks for a random
character. -/
theorem drawn_populate_eq_iff {specs : List FieldSpec} {known : FieldMap} {source : Source}
    {run : Population} (ran : populate specs known source = some run) :
    run.source.drawn = source.drawn ↔ ∀ spec ∈ specs, spec.demand = 0 := by
  constructor
  · intro still
    induction specs generalizing known source run with
    | nil => exact fun spec member => absurd member List.not_mem_nil
    | cons spec rest ih =>
      obtain ⟨entry, moved, after, step, later, rfl⟩ := populate_cons_eq_some_iff.mp ran
      obtain ⟨-, -, -, rfl⟩ := FieldSpec.populate_eq_some_iff.mp step
      have here := spec.le_drawn_resolve known source
      have behind := drawn_le_drawn_populate later
      simp only at still
      have calm : spec.demand = 0 := by omega
      have restStill : after.source.drawn = (spec.resolve known source).2.drawn := by omega
      intro other member
      rcases List.mem_cons.mp member with rfl | member
      · exact calm
      · exact ih later restStill other member
  · intro quiet
    rw [source_populate_of_quiet quiet ran]

/-- When a first batch draws nothing, populating both batches at once gives the results of the first
and then those that the second gives on the fields of the first, from the source that the first
started with. Where padding fails in one of the batches, it fails for both at once. -/
theorem populate_in_batches {front : List FieldSpec} {known : FieldMap} {source : Source}
    (silent : ∀ first ∈ populate front known source, first.source.drawn = source.drawn)
    (back : List FieldSpec) :
    populate (front ++ back) known source = do
      let first ← populate front known source
      let second ← populate back first.fields source
      return ⟨first.resolved ++ second.resolved, second.fields, second.source⟩ := by
  rw [populate_append]
  cases ran : populate front known source with
  | none => rfl
  | some first =>
    have quiet := (drawn_populate_eq_iff ran).mp (silent first ran)
    have still : first.source = source := source_populate_of_quiet quiet ran
    simp only [Option.bind_eq_bind, Option.bind_some, still]

/-- The first batch has literals, repetitions and references, and random counts that are zero,
missing, beyond what memory holds or beyond what a count holds; a rule in disuse would draw. -/
theorem populate_in_batches_seeded :
    let front : List FieldSpec :=
      [⟨"code".toList, none, none,
          some "A-(x[3])(name[ch1])(rn[0])(rc[y])(rn[9223372036854775808])(rc[99999999999999999999])".toList,
          some "(0[9])".toList⟩,
        ⟨"name".toList, none, some "code[ch1-4]".toList, some "(rn[8])".toList, none⟩]
    let back : List FieldSpec :=
      [⟨"ref".toList, none, none, some "(name)-(rn[4])(rc[2])".toList, none⟩,
        ⟨"code".toList, none, none, some "(ref[ch6-7])(rn[1])".toList, none⟩]
    let known : FieldMap := .ofList [("name".toList, .text "Ada".toList), ("x".toList, .ofInt 5)]
    (∀ first ∈ populate front known (.seeded 7),
      first.source.drawn = (Source.seeded 7).drawn) ∧
    ∃ first second, populate front known (.seeded 7) = some first ∧
      populate back first.fields (.seeded 7) = some second ∧
      populate (front ++ back) known (.seeded 7) =
        some ⟨first.resolved ++ second.resolved, second.fields, second.source⟩ := by
  intro front back known
  have quiet : ∀ spec ∈ front, spec.demand = 0 := by decide
  have silent : ∀ first ∈ populate front known (.seeded 7),
      first.source.drawn = (Source.seeded 7).drawn :=
    fun first ran => (drawn_populate_eq_iff ran).mpr quiet
  obtain ⟨first, ran⟩ : ∃ first, populate front known (.seeded 7) = some first :=
    Option.isSome_iff_exists.mp (by decide +kernel)
  obtain ⟨second, later⟩ : ∃ second, populate back first.fields (.seeded 7) = some second :=
    Option.isSome_iff_exists.mp rfl
  refine ⟨silent, first, second, ran, later, ?_⟩
  rw [populate_in_batches silent back, ran]
  simp only [Option.bind_eq_bind, Option.bind_some, later, pure]

end FormFill
