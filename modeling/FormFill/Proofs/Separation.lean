import FormFill.Proofs.DrawIndependence
import FormFill.Proofs.Drawing

/-! # Fields and random draws stay apart

A segment is either drawn from the random source without a look at the fields, or made from the
fields without a look at the source. So the records of one rule under two field maps are the same
where they are random, and those over two sources are the same everywhere else.
-/

namespace FormFill

namespace SegmentTrace

/-- The same record, if either of them is of a random segment. -/
def AlikeIfRandom (record other : SegmentTrace) : Prop :=
  record.kind.isRandom ∨ other.kind.isRandom → record = other

/-- The same record, unless both of them are of random segments. -/
def AlikeUnlessRandom (record other : SegmentTrace) : Prop :=
  ¬ (record.kind.isRandom ∧ other.kind.isRandom) → record = other

/-- Under any two field maps the random segments of a row have the same records. -/
theorem alikeIfRandom_ofSegments (segments : List Segment) (fields others : Option FieldMap)
    (source : Source) :
    List.Forall₂ AlikeIfRandom (ofSegments fields segments source)
      (ofSegments others segments source) := by
  induction segments generalizing source with
  | nil => exact .nil
  | cons segment rest ih =>
    rcases segment.fromSource_or_fromFields with
      ⟨kind, draw, random, resolved⟩ | ⟨made, fixed, resolved⟩
    · simp only [ofSegments, resolved]
      exact .cons (fun _ => rfl) (ih _)
    · simp only [ofSegments, resolved]
      apply List.Forall₂.cons
      · rintro (random | random)
        · exact absurd random (by simp [fixed])
        · exact absurd random (by simp [fixed])
      · exact ih source

/-- Over any two sources the other segments of a row have the same records. -/
theorem alikeUnlessRandom_ofSegments (segments : List Segment) (fields : Option FieldMap)
    (source other : Source) :
    List.Forall₂ AlikeUnlessRandom (ofSegments fields segments source)
      (ofSegments fields segments other) := by
  induction segments generalizing source other with
  | nil => exact .nil
  | cons segment rest ih =>
    rcases segment.fromSource_or_fromFields with
      ⟨kind, draw, random, resolved⟩ | ⟨made, fixed, resolved⟩
    · simp only [ofSegments, resolved]
      apply List.Forall₂.cons
      · intro different
        exact absurd ⟨random, random⟩ different
      · exact ih _ _
    · simp only [ofSegments, resolved]
      exact .cons (fun _ => rfl) (ih _ _)

end SegmentTrace

/-- Over one source the random segments of a rule have the same records under any two field maps,
and the source is left at the same place. Under one field map all other segments have the same
records over any two sources. The source is not touched at all exactly when no segment asks for a
random character that memory could hold. -/
theorem explain_separates (rule : Text) (fields others : Option FieldMap) (source other : Source) :
    let records (fields : Option FieldMap) (source : Source) := (explain rule fields source).segments
    (List.Forall₂ SegmentTrace.AlikeIfRandom (records fields source) (records others source) ∧
        (generate rule fields source).2 = (generate rule others source).2) ∧
      List.Forall₂ SegmentTrace.AlikeUnlessRandom (records fields source) (records fields other) ∧
      ((generate rule fields source).2 = source ↔
        ∀ segment ∈ Segment.ofRule rule, segment.demand = 0) := by
  intro records
  refine ⟨⟨?_, ?_⟩, ?_, ?_⟩
  · exact SegmentTrace.alikeIfRandom_ofSegments _ fields others source
  · exact Segment.source_resolveAll _ fields others source
  · exact SegmentTrace.alikeUnlessRandom_ofSegments _ fields source other
  · exact Segment.source_resolveAll_eq_iff _ fields source

end FormFill
