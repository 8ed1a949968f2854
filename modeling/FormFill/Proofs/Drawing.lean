import FormFill.Proofs.FieldReads

/-! # What draws from the random source

How many random characters a rule asks for can be read off its text. Every one of them takes words
from the source, and nothing else does. A specification that asks for none therefore leaves the
source as it is, and gives the same result over any other.
-/

namespace FormFill

namespace Generator

/-- How many random characters a generator asks for. -/
def demand : Generator → Nat
  | .randomDigits count => Text.boundedCount 1 count
  | .randomLetters count => Text.boundedCount 1 count
  | .duplicate _ => 0
  | .reference _ => 0

theorem le_drawn_resolve (generator : Generator) (fields : Option FieldMap) (source : Source) :
    source.drawn + generator.demand ≤ (generator.resolve fields source).2.drawn := by
  cases generator with
  | randomDigits count => exact (Source.drawn_sample _ _ _).1
  | randomLetters count => exact (Source.drawn_sample _ _ _).1
  | duplicate repetition => exact Nat.le_refl _
  | reference expression => cases fields <;> exact Nat.le_refl _

theorem resolve_of_demand_eq_zero {generator : Generator} (quiet : generator.demand = 0)
    (fields : Option FieldMap) (source other : Source) :
    generator.resolve fields source = ((generator.resolve fields other).1, source) := by
  cases generator with
  | randomDigits count =>
    have nothing : Text.boundedCount 1 count = 0 := quiet
    simp only [resolve, Source.randomText, nothing, Source.sample]
  | randomLetters count =>
    have nothing : Text.boundedCount 1 count = 0 := quiet
    simp only [resolve, Source.randomText, nothing, Source.sample]
  | duplicate repetition => rfl
  | reference expression => cases fields <;> rfl

end Generator

namespace Segment

/-- How many random characters a segment asks for. -/
def demand : Segment → Nat
  | .literal _ => 0
  | .group content => (Generator.parse content).demand

/-- How many random characters a row of segments asks for. -/
def demandAll : List Segment → Nat
  | [] => 0
  | segment :: rest => segment.demand + demandAll rest

theorem le_drawn_resolve (segment : Segment) (fields : Option FieldMap) (source : Source) :
    source.drawn + segment.demand ≤ (segment.resolve fields source).2.drawn := by
  cases segment with
  | literal text => exact Nat.le_refl _
  | group content => exact Generator.le_drawn_resolve _ fields source

theorem resolve_of_demand_eq_zero {segment : Segment} (quiet : segment.demand = 0)
    (fields : Option FieldMap) (source other : Source) :
    segment.resolve fields source = ((segment.resolve fields other).1, source) := by
  cases segment with
  | literal text => rfl
  | group content => exact Generator.resolve_of_demand_eq_zero quiet fields source other

theorem demandAll_eq_zero_iff {segments : List Segment} :
    demandAll segments = 0 ↔ ∀ segment ∈ segments, segment.demand = 0 := by
  induction segments with
  | nil => simp [demandAll]
  | cons segment rest ih => simp [demandAll, ih]

theorem le_drawn_resolveAll (segments : List Segment) (fields : Option FieldMap) (source : Source) :
    source.drawn + demandAll segments ≤ (resolveAll fields segments source).2.drawn := by
  induction segments generalizing source with
  | nil => exact Nat.le_refl _
  | cons segment rest ih =>
    have here := segment.le_drawn_resolve fields source
    have later := ih (segment.resolve fields source).2
    simp only [resolveAll, demandAll]
    omega

theorem resolveAll_of_demandAll_eq_zero {segments : List Segment} (quiet : demandAll segments = 0)
    (fields : Option FieldMap) (source other : Source) :
    resolveAll fields segments source = ((resolveAll fields segments other).1, source) := by
  induction segments with
  | nil => rfl
  | cons segment rest ih =>
    obtain ⟨here, later⟩ := Nat.add_eq_zero_iff.mp quiet
    have same := resolve_of_demand_eq_zero here fields source other
    have still : (segment.resolve fields other).2 = other :=
      congrArg Prod.snd (resolve_of_demand_eq_zero here fields other other)
    simp only [resolveAll, same, still, ih later]

/-- A row of segments takes no word exactly when it asks for no random character. -/
theorem drawn_resolveAll_eq_iff (segments : List Segment) (fields : Option FieldMap)
    (source : Source) :
    (resolveAll fields segments source).2.drawn = source.drawn ↔ demandAll segments = 0 := by
  constructor
  · intro still
    have taken := le_drawn_resolveAll segments fields source
    omega
  · intro quiet
    rw [resolveAll_of_demandAll_eq_zero quiet fields source source]

theorem source_resolveAll_eq_iff (segments : List Segment) (fields : Option FieldMap)
    (source : Source) :
    (resolveAll fields segments source).2 = source ↔ ∀ segment ∈ segments, segment.demand = 0 := by
  rw [← demandAll_eq_zero_iff]
  constructor
  · intro still
    exact (drawn_resolveAll_eq_iff segments fields source).mp (congrArg Source.drawn still)
  · intro quiet
    exact congrArg Prod.snd (resolveAll_of_demandAll_eq_zero quiet fields source source)

end Segment

namespace FieldSpec

/-- How many random characters the active rule asks for. -/
def demand (spec : FieldSpec) : Nat :=
  match spec.rule with
  | .generated rule => Segment.demandAll (Segment.ofRule rule)
  | .entered _ | .extracted _ | .kept => 0

theorem le_drawn_resolve (spec : FieldSpec) (fields : FieldMap) (source : Source) :
    source.drawn + spec.demand ≤ (spec.resolve fields source).2.drawn := by
  rw [resolve_eq_rule, demand]
  cases spec.rule with
  | entered value => exact Nat.le_refl _
  | extracted expression => exact Nat.le_refl _
  | generated rule => exact Segment.le_drawn_resolveAll _ _ _
  | kept => exact Nat.le_of_eq (congrArg Source.drawn (FieldRule.source_resolve_kept _ _ _)).symm

theorem resolve_of_demand_eq_zero {spec : FieldSpec} (quiet : spec.demand = 0) (fields : FieldMap)
    (source other : Source) :
    spec.resolve fields source = ((spec.resolve fields other).1, source) := by
  rw [resolve_eq_rule, resolve_eq_rule]
  rw [demand] at quiet
  cases active : spec.rule with
  | entered value => rfl
  | extracted expression => rfl
  | generated rule =>
    rw [active] at quiet
    have same := Segment.resolveAll_of_demandAll_eq_zero quiet (some fields) source other
    simp only [FieldRule.resolve, generate, same]
  | kept => unfold FieldRule.resolve; cases fields.get? spec.id <;> rfl

/-- Whatever the fields and the source, resolving leaves the source where it is exactly when no
random character is asked for. -/
theorem source_resolve_eq_iff {spec : FieldSpec} (fields : FieldMap) (source : Source) :
    (spec.resolve fields source).2 = source ↔ spec.demand = 0 := by
  constructor
  · intro still
    have taken := spec.le_drawn_resolve fields source
    rw [still] at taken
    omega
  · intro quiet
    exact congrArg Prod.snd (resolve_of_demand_eq_zero quiet fields source source)

/-- Whether resolving the field takes words from a source. -/
def Draws (spec : FieldSpec) : Prop :=
  ∃ fields source, (spec.resolve fields source).2 ≠ source

/-- Exactly the specifications that ask for random characters draw. -/
theorem draws_iff {spec : FieldSpec} : spec.Draws ↔ spec.demand ≠ 0 := by
  constructor
  · rintro ⟨fields, source, moved⟩ quiet
    exact moved ((source_resolve_eq_iff fields source).mpr quiet)
  · intro asks
    exact ⟨∅, .cycle #[], mt (source_resolve_eq_iff _ _).mp asks⟩

instance : DecidablePred Draws := fun _ => decidable_of_iff _ draws_iff.symm

end FieldSpec

end FormFill
