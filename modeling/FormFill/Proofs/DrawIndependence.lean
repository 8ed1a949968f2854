import FormFill.Proofs.Explanation
import FormFill.Proofs.PaddedFields

/-! # Draws do not depend on the fields

A random generator sees the random source and its own count, and every other generator leaves the
source alone. Two resolutions of one rule over one source therefore draw the same texts and end at
the same place of the source, whatever fields they see, and two populations of one row of
specifications stay in step from each specification to the next. What the fields do decide is
whether a padded value fits in memory, and so how far a population comes.
-/

namespace FormFill

namespace SegmentKind

/-- Whether a segment of this kind is random text. -/
def isRandom : SegmentKind → Bool
  | .randomDigits | .randomLetters => true
  | .literal | .duplicate | .duplicateField | .reference | .skipped => false

end SegmentKind

namespace Resolution

/-- The text that was drawn, if the segment is random. -/
def randomText? (resolution : Resolution) : Option Text :=
  if resolution.kind.isRandom then some resolution.output else none

end Resolution

namespace SegmentTrace

/-- The text that was drawn for the segment, if it is random. -/
def randomText? (record : SegmentTrace) : Option Text :=
  (⟨record.output, record.kind⟩ : Resolution).randomText?

end SegmentTrace

namespace Repetition

/-- No repetition is random, whether it repeats a field or its unit. -/
theorem isRandom_kind_resolve (repetition : Repetition) (fields : Option FieldMap) :
    (repetition.resolve fields).kind.isRandom = false := by
  unfold resolve
  split <;> rfl

end Repetition

namespace Resolution

/-- A way of resolving that draws a random text and does not look at the fields. -/
def FromSource (resolve : Option FieldMap → Source → Resolution × Source) : Prop :=
  ∃ (kind : SegmentKind) (draw : Source → Text × Source), kind.isRandom ∧
    ∀ fields source, resolve fields source = (⟨(draw source).1, kind⟩, (draw source).2)

/-- A way of resolving that is not random and leaves the source as it is. -/
def FromFields (resolve : Option FieldMap → Source → Resolution × Source) : Prop :=
  ∃ made : Option FieldMap → Resolution, (∀ fields, (made fields).kind.isRandom = false) ∧
    ∀ fields source, resolve fields source = (made fields, source)

end Resolution

open Resolution (FromSource FromFields)

namespace Generator

/-- Every generator uses one of its two inputs only. -/
theorem fromSource_or_fromFields (generator : Generator) :
    FromSource generator.resolve ∨ FromFields generator.resolve := by
  cases generator with
  | randomDigits count =>
    left
    exact ⟨.randomDigits, fun source => source.randomText .digits count, rfl, fun _ _ => rfl⟩
  | randomLetters count =>
    left
    exact ⟨.randomLetters, fun source => source.randomText .letters count, rfl, fun _ _ => rfl⟩
  | duplicate repetition =>
    right
    exact ⟨repetition.resolve, repetition.isRandom_kind_resolve, fun _ _ => rfl⟩
  | reference expression =>
    right
    refine ⟨fun fields => fields.elim ⟨[], .skipped⟩ (⟨expression.extract ·, .reference⟩), ?_, ?_⟩
    · intro fields
      cases fields <;> rfl
    · intro fields source
      cases fields <;> rfl

end Generator

namespace Segment

theorem fromSource_or_fromFields (segment : Segment) :
    FromSource segment.resolve ∨ FromFields segment.resolve := by
  cases segment with
  | literal text =>
    right
    exact ⟨fun _ => ⟨text, .literal⟩, fun _ => rfl, fun _ _ => rfl⟩
  | group content => exact (Generator.parse content).fromSource_or_fromFields

/-- Under any two field maps a segment draws the same text and takes the same words. -/
theorem resolve_in_step (segment : Segment) (fields others : Option FieldMap) (source : Source) :
    (segment.resolve fields source).1.randomText? =
        (segment.resolve others source).1.randomText? ∧
      (segment.resolve fields source).2 = (segment.resolve others source).2 := by
  rcases segment.fromSource_or_fromFields with
    ⟨kind, draw, random, resolved⟩ | ⟨made, fixed, resolved⟩
  · rw [resolved, resolved]
    exact ⟨rfl, rfl⟩
  · simp [resolved, Resolution.randomText?, fixed]

/-- Under any two field maps a row of segments takes the same words. -/
theorem source_resolveAll (segments : List Segment) (fields others : Option FieldMap)
    (source : Source) :
    (resolveAll fields segments source).2 = (resolveAll others segments source).2 := by
  induction segments generalizing source with
  | nil => rfl
  | cons segment rest ih =>
    have here := (segment.resolve_in_step fields others source).2
    simp only [resolveAll, here, ih]

end Segment

namespace SegmentTrace

/-- Under any two field maps every random segment of a row draws the same text. -/
theorem map_randomText?_ofSegments (segments : List Segment) (fields others : Option FieldMap)
    (source : Source) :
    (ofSegments fields segments source).map (·.randomText?) =
      (ofSegments others segments source).map (·.randomText?) := by
  induction segments generalizing source with
  | nil => rfl
  | cons segment rest ih =>
    obtain ⟨sameText, sameSource⟩ := segment.resolve_in_step fields others source
    simp only [ofSegments, List.map_cons, sameSource, ih]
    exact congrArg (· :: _) sameText

end SegmentTrace

namespace ValueSource

/-- Whether the field was not populated by a value or rule of its specification. -/
def isFallback : ValueSource → Bool
  | .known | .empty => true
  | .explicit | .dependsOn | .generated => false

/-- Equal, but for fields that were known in one run and empty in the other. -/
def AlikeUpToFallback (left right : ValueSource) : Prop :=
  left = right ∨ left.isFallback ∧ right.isFallback

end ValueSource

namespace FieldSpec

/-- Under any two field maps a specification takes the same words. -/
theorem source_resolve (spec : FieldSpec) (left right : FieldMap) (source : Source) :
    (spec.resolve left source).2 = (spec.resolve right source).2 := by
  rw [resolve_eq_rule, resolve_eq_rule]
  cases spec.rule with
  | entered value => rfl
  | extracted expression => rfl
  | generated rule => exact Segment.source_resolveAll _ _ _ source
  | kept =>
    exact (FieldRule.source_resolve_kept spec.id left source).trans
      (FieldRule.source_resolve_kept spec.id right source).symm

/-- Only a field that is kept can have different origins under two field maps. -/
theorem origin_resolve (spec : FieldSpec) (left right : FieldMap) (source : Source) :
    ValueSource.AlikeUpToFallback (spec.resolve left source).1.2
      (spec.resolve right source).1.2 := by
  rw [resolve_eq_rule, resolve_eq_rule]
  cases spec.rule with
  | entered value => exact .inl rfl
  | extracted expression => exact .inl rfl
  | generated rule => exact .inl rfl
  | kept =>
    have fallback : ∀ fields, (FieldRule.kept.resolve spec.id fields source).1.2.isFallback := by
      intro fields
      unfold FieldRule.resolve
      cases fields.get? spec.id <;> rfl
    exact .inr ⟨fallback left, fallback right⟩

/-- A generated field resolves to its explanation's value. -/
theorem value_resolve_generated {spec : FieldSpec} {rule : Text}
    (active : spec.rule = .generated rule) (fields : FieldMap) (source : Source) :
    (spec.resolve fields source).1.1 = .text (explain rule (some fields) source).value := by
  have value : (explain rule (some fields) source).value = (generate rule (some fields) source).1 :=
    SegmentTrace.flatMap_output_ofSegments _ _ _
  rw [resolve_eq_rule, active, value]
  rfl

end FieldSpec

/-- Whatever is known before, two populations that come to their end take the same words. Their
results differ in origin only where a field was known in one of them and empty in the other. -/
theorem populate_alike {specs : List FieldSpec} {left right : FieldMap} {source : Source}
    {one other : Population} (ran : populate specs left source = some one)
    (twin : populate specs right source = some other) :
    one.source = other.source ∧
      List.Forall₂ (fun entry twin => entry.source.AlikeUpToFallback twin.source)
        one.resolved other.resolved := by
  induction specs generalizing left right source one other with
  | nil =>
    cases populate_nil_eq_some_iff.mp ran
    cases populate_nil_eq_some_iff.mp twin
    exact ⟨rfl, .nil⟩
  | cons spec rest ih =>
    obtain ⟨entry, moved, after, step, later, rfl⟩ := populate_cons_eq_some_iff.mp ran
    obtain ⟨partner, aside, behind, pace, next, rfl⟩ := populate_cons_eq_some_iff.mp twin
    obtain ⟨-, -, origin, rfl⟩ := FieldSpec.populate_eq_some_iff.mp step
    obtain ⟨-, -, others, rfl⟩ := FieldSpec.populate_eq_some_iff.mp pace
    rw [spec.source_resolve right left source] at next
    obtain ⟨sameSource, origins⟩ := ih later next
    refine ⟨sameSource, .cons ?_ origins⟩
    rw [origin, others]
    exact spec.origin_resolve left right source

/-- Two populations from one source, with whatever known fields, stay in step as far as both come.
After each prefix that both come to the end of, they have drawn the same words, their results differ
in origin only where a field was known in one and empty in the other, and the explanations of a rule
that is generated next have the same texts in the same random segments. The value of the generated
field is the padded value of the explanation. A population stops only at a field that is too large
for memory once it is padded. -/
theorem populate_in_step (specs : List FieldSpec) (left right : FieldMap) (source : Source) :
    let run (known : FieldMap) (count : Nat) := populate (specs.take count) known source
    let trace (rule : Text) (reached : Population) :=
      explain rule (some reached.fields) reached.source
    (∀ count, ∀ one ∈ run left count, ∀ other ∈ run right count,
      one.source = other.source ∧
      List.Forall₂ (fun entry twin => entry.source.AlikeUpToFallback twin.source)
        one.resolved other.resolved ∧
      ∀ rule, (trace rule one).segments.map (·.randomText?) =
        (trace rule other).segments.map (·.randomText?)) ∧
    ∀ known count, ∀ before ∈ run known count, ∀ spec, specs[count]? = some spec →
      (run known (count + 1) = none ↔
        spec.Overfills (spec.resolve before.fields before.source).1.1) ∧
      ∀ rule, spec.rule = .generated rule →
        (run known (count + 1)).map (·.resolved.map (·.value)) =
          (spec.pad (.text (trace rule before).value)).map fun padded =>
            before.resolved.map (·.value) ++ [padded.1] := by
  intro run trace
  constructor
  · intro count one ran other twin
    obtain ⟨inStep, origins⟩ := populate_alike ran twin
    refine ⟨inStep, origins, fun rule => ?_⟩
    simp only [trace, explain, inStep]
    exact SegmentTrace.map_randomText?_ofSegments _ _ _ _
  · intro known count before reached spec present
    have next : run known (count + 1) = _ := populate_take_succ reached present
    rw [next]
    constructor
    · rw [Option.map_eq_none_iff, FieldSpec.populate_eq_none_iff, FieldSpec.pad_eq_none_iff]
    · intro rule active
      have value := FieldSpec.value_resolve_generated active before.fields before.source
      rw [FieldSpec.populate, ← value]
      obtain ⟨⟨value, origin⟩, moved⟩ := spec.resolve before.fields before.source
      cases padded : spec.pad value <;> simp [padded]

/-- A city of two words against none, a repeated field against its bare name, and a note that is
known in one population only. -/
theorem populate_in_step_apart :
    let code : FieldSpec :=
      ⟨"code".toList, none, none, some "(name)-(rn[3])(x[2])(rc[2])".toList, some "(0[12])".toList⟩
    let specs : List FieldSpec :=
      [⟨"name".toList, none, some "city[w2]".toList, none, none⟩, code,
        ⟨"note".toList, none, none, none, none⟩]
    let left : FieldMap :=
      .ofList [("city".toList, .text "New York".toList), ("x".toList, .ofInt 7)]
    let right : FieldMap := .ofList [("note".toList, .boolean true)]
    let run (known : FieldMap) (count : Nat) := populate (specs.take count) known (.seeded 7)
    let trace (reached : Population) :=
      explain "(name)-(rn[3])(x[2])(rc[2])".toList (some reached.fields) reached.source
    ∃ one other whole others, run left 1 = some one ∧ run right 1 = some other ∧
      run left 3 = some whole ∧ run right 3 = some others ∧
      (trace one).segments.map (·.randomText?) = (trace other).segments.map (·.randomText?) ∧
      whole.source = others.source ∧
      List.Forall₂ (fun entry twin => entry.source.AlikeUpToFallback twin.source)
        whole.resolved others.resolved := by
  intro code specs left right run trace
  have runs : ∀ known ∈ [left, right], (run known 1).isSome ∧ (run known 3).isSome := by
    decide +kernel
  obtain ⟨one, first⟩ := Option.isSome_iff_exists.mp (runs left (by simp)).1
  obtain ⟨other, twin⟩ := Option.isSome_iff_exists.mp (runs right (by simp)).1
  obtain ⟨whole, last⟩ := Option.isSome_iff_exists.mp (runs left (by simp)).2
  obtain ⟨others, twins⟩ := Option.isSome_iff_exists.mp (runs right (by simp)).2
  have inStep := (populate_in_step specs left right (.seeded 7)).1
  obtain ⟨-, -, texts⟩ := inStep 1 one first other twin
  obtain ⟨sources, origins, -⟩ := inStep 3 whole last others twins
  exact ⟨one, other, whole, others, first, twin, last, twins, texts _, sources, origins⟩

/-- Known fields do decide how far a population comes, and so what it draws: behind an empty field
digits are drawn, and behind one of a single character nothing is, since its padded text is too
large for memory. -/
theorem populate_out_of_step :
    let specs : List FieldSpec :=
      [⟨"x".toList, none, none, none, some "(b[9223372036854775808])".toList⟩,
        ⟨"y".toList, none, none, some "(rn[3])".toList, none⟩]
    let left : FieldMap := .ofList [("x".toList, .text [])]
    let right : FieldMap := .ofList [("x".toList, .text "a".toList)]
    (populate specs left (.seeded 7)).map (·.source.drawn) = some 3 ∧
      populate (specs.take 1) right (.seeded 7) = none ∧
      populate specs right (.seeded 7) = none := by
  intro specs left right
  exact ⟨by decide +kernel, Option.isNone_iff_eq_none.mp (by decide +kernel),
    Option.isNone_iff_eq_none.mp (by decide +kernel)⟩

end FormFill
