import FormFill.Extraction
import FormFill.Random.Sample
import FormFill.Rule.Generator
import FormFill.Rule.Segment

/-! # Generation

A rule is resolved segment by segment, from left to right, over one random source. Without a field
map a reference produces nothing and a duplication repeats its unit. Explaining a rule resolves it
in the same way and records for every segment how it was written, how it was understood and what it
gave.
-/

namespace FormFill

/-- How a segment was understood. -/
inductive SegmentKind where
  | literal
  | randomDigits
  | randomLetters
  | duplicate
  | duplicateField
  | reference
  | skipped
deriving DecidableEq

namespace SegmentKind

/-- The name of a kind in reports. -/
def label : SegmentKind → Text
  | .literal => "literal".toList
  | .randomDigits => "random-digits".toList
  | .randomLetters => "random-letters".toList
  | .duplicate => "duplicate".toList
  | .duplicateField => "duplicate-field".toList
  | .reference => "field-ref".toList
  | .skipped => "skipped".toList

end SegmentKind

/-- The output of a segment and how the segment was understood. -/
structure Resolution where
  output : Text
  kind : SegmentKind
deriving DecidableEq

namespace Repetition

/-- The unit repeated, or the display text of the field of that name when it is set. -/
def resolve (repetition : Repetition) (fields : Option FieldMap) : Resolution :=
  match (fields.bind (·.get? repetition.unit)).filter (·.isTruthy) with
  | some value => ⟨value.display.repeated repetition.count, .duplicateField⟩
  | none => ⟨repetition.unit.repeated repetition.count, .duplicate⟩

end Repetition

namespace Generator

/-- Resolve the contents of a group; only the random forms draw words. -/
def resolve (generator : Generator) (fields : Option FieldMap) (source : Source) :
    Resolution × Source :=
  match generator with
  | .randomDigits count =>
    let (output, source) := source.randomText .digits count
    (⟨output, .randomDigits⟩, source)
  | .randomLetters count =>
    let (output, source) := source.randomText .letters count
    (⟨output, .randomLetters⟩, source)
  | .duplicate repetition => (repetition.resolve fields, source)
  | .reference expression =>
    match fields with
    | some fields => (⟨expression.extract fields, .reference⟩, source)
    | none => (⟨[], .skipped⟩, source)

end Generator

namespace Segment

/-- Resolve a segment: literals are copied, groups are generated. -/
def resolve (segment : Segment) (fields : Option FieldMap) (source : Source) :
    Resolution × Source :=
  match segment with
  | .literal text => (⟨text, .literal⟩, source)
  | .group content => (Generator.parse content).resolve fields source

/-- The joined output of segments, resolved from left to right. -/
def resolveAll (fields : Option FieldMap) : List Segment → Source → Text × Source
  | [], source => ([], source)
  | segment :: rest, source =>
    let (resolution, source) := segment.resolve fields source
    let (text, source) := resolveAll fields rest source
    (resolution.output ++ text, source)

end Segment

/-- Resolve a rule, and return the source as the rule leaves it. -/
def generate (rule : Text) (fields : Option FieldMap) (source : Source) : Text × Source :=
  Segment.resolveAll fields (Segment.ofRule rule) source

/-- What became of one segment. -/
structure SegmentTrace where
  raw : Text
  kind : SegmentKind
  output : Text
deriving DecidableEq

namespace SegmentTrace

/-- Resolve segments from left to right and record each. -/
def ofSegments (fields : Option FieldMap) : List Segment → Source → List SegmentTrace
  | [], _ => []
  | segment :: rest, source =>
    let (resolution, source) := segment.resolve fields source
    ⟨segment.render, resolution.kind, resolution.output⟩ :: ofSegments fields rest source

end SegmentTrace

/-- The record of a rule's resolution. -/
structure Trace where
  rule : Text
  value : Text
  segments : List SegmentTrace
deriving DecidableEq

/-- Resolve a rule and record how each segment was handled. -/
def explain (rule : Text) (fields : Option FieldMap) (source : Source) : Trace :=
  let segments := SegmentTrace.ofSegments fields (Segment.ofRule rule) source
  ⟨rule, segments.flatMap (·.output), segments⟩

namespace Segment

/-- Resolving a row of segments is resolving its front and then, from there, its back. -/
theorem resolveAll_append (fields : Option FieldMap) (front back : List Segment) (source : Source) :
    resolveAll fields (front ++ back) source =
      ((resolveAll fields front source).1 ++
          (resolveAll fields back (resolveAll fields front source).2).1,
        (resolveAll fields back (resolveAll fields front source).2).2) := by
  induction front generalizing source with
  | nil => simp [resolveAll]
  | cons segment rest ih => simp [resolveAll, ih]

end Segment

end FormFill
