import FormFill.Generation
import FormFill.Proofs.Pieces

/-! # Explanations

An explanation resolves the segments of a rule as plain generation does, and keeps how each was
written. What is kept of a segment is a rule of its own: it has that segment and no other, so the
written segments generated one after another give the recorded outputs once more.
-/

namespace FormFill

namespace Piece

theorem WellPlaced.exists_fits {pieces : List Piece} {piece : Piece} (placed : WellPlaced pieces)
    (member : piece ∈ pieces) : ∃ rest, piece.Fits rest := by
  induction pieces with
  | nil => contradiction
  | cons first pieces ih =>
    rcases List.mem_cons.mp member with rfl | later
    · exact ⟨_, placed.1⟩
    · exact ih placed.2 later

/-- A run or a group that fits before some text can also end a rule. -/
theorem Fits.atEnd {piece : Piece} {rest : Text} {segment : Segment} (fits : piece.Fits rest)
    (kept : piece.segment? = some segment) : piece.Fits [] := by
  cases piece with
  | run text =>
    obtain ⟨nonempty, plain, -⟩ := fits
    exact ⟨nonempty, plain, by simp⟩
  | group content => exact fits
  | strayOpening => contradiction
  | strayClosing => contradiction

end Piece

namespace Segment

/-- A segment of a rule, written alone, is a rule with just that segment. -/
theorem ofRule_render_of_mem {rule : Text} {segment : Segment} (member : segment ∈ ofRule rule) :
    ofRule segment.render = [segment] := by
  obtain ⟨pieces, rfl, placed⟩ := Piece.exists_cut rule
  rw [placed.ofRule_renderAll] at member
  obtain ⟨piece, present, kept⟩ := List.mem_filterMap.mp member
  obtain ⟨rest, fits⟩ := placed.exists_fits present
  have alone : ofRule (piece.render ++ []) = piece.segment?.toList ++ ofRule [] :=
    Piece.ofRule_render_append (fits.atEnd kept)
  rw [Piece.render_of_segment? kept, ← List.append_nil piece.render, alone, kept]
  rfl

end Segment

namespace SegmentTrace

variable (fields : Option FieldMap) (segments : List Segment) (source : Source)

theorem map_raw_ofSegments :
    (ofSegments fields segments source).map (·.raw) = segments.map Segment.render := by
  induction segments generalizing source with
  | nil => rfl
  | cons segment rest ih => simp [ofSegments, ih]

/-- The recorded outputs, joined, are what the segments resolve to. -/
theorem flatMap_output_ofSegments :
    (ofSegments fields segments source).flatMap (·.output) =
      (Segment.resolveAll fields segments source).1 := by
  induction segments generalizing source with
  | nil => rfl
  | cons segment rest ih => simp [ofSegments, Segment.resolveAll, ih]

end SegmentTrace

/-- Generate rules one after another over one random source, and keep their texts apart. -/
def generateEach (fields : Option FieldMap) : List Text → Source → List Text × Source
  | [], source => ([], source)
  | rule :: rest, source =>
    let (text, source) := generate rule fields source
    let (texts, source) := generateEach fields rest source
    (text :: texts, source)

/-- A rule of one segment is generated as the segment is resolved. -/
theorem generate_of_single {rule : Text} {segment : Segment}
    (single : Segment.ofRule rule = [segment]) (fields : Option FieldMap) (source : Source) :
    generate rule fields source =
      ((segment.resolve fields source).1.output, (segment.resolve fields source).2) := by
  rw [generate, single]
  simp [Segment.resolveAll]

/-- Segments that can stand alone, generated one after another as they are written, give the
recorded outputs and leave the source where their joint resolution leaves it. -/
theorem generateEach_render {segments : List Segment}
    (alone : ∀ segment ∈ segments, Segment.ofRule segment.render = [segment])
    (fields : Option FieldMap) (source : Source) :
    generateEach fields (segments.map Segment.render) source =
      ((SegmentTrace.ofSegments fields segments source).map (·.output),
        (Segment.resolveAll fields segments source).2) := by
  induction segments generalizing source with
  | nil => rfl
  | cons segment rest ih =>
    have here := generate_of_single (alone segment List.mem_cons_self) fields source
    have later := ih (fun other member => alone other (List.mem_cons_of_mem _ member))
      (segment.resolve fields source).2
    simp only [List.map_cons, generateEach, here, later, SegmentTrace.ofSegments,
      Segment.resolveAll]

/-- An explanation has one record for each segment of the rule, in order, written so that it has
that segment alone. Its value joins the recorded outputs and is what plain generation gives from the
same source, and generating the written segments one after another gives every recorded output. -/
theorem explain_agrees (rule : Text) (fields : Option FieldMap) (source : Source) :
    let trace := explain rule fields source
    trace.segments.map (fun record => Segment.ofRule record.raw) =
        (Segment.ofRule rule).map (fun segment => [segment]) ∧
      trace.value = trace.segments.flatMap (·.output) ∧
      trace.value = (generate rule fields source).1 ∧
      generateEach fields (trace.segments.map (·.raw)) source =
        (trace.segments.map (·.output), (generate rule fields source).2) := by
  have raws := SegmentTrace.map_raw_ofSegments fields (Segment.ofRule rule) source
  have alone : ∀ segment ∈ Segment.ofRule rule, Segment.ofRule segment.render = [segment] :=
    fun segment => Segment.ofRule_render_of_mem
  refine ⟨?_, rfl, SegmentTrace.flatMap_output_ofSegments _ _ _, ?_⟩
  · calc (explain rule fields source).segments.map (fun record => Segment.ofRule record.raw)
        = ((explain rule fields source).segments.map (·.raw)).map Segment.ofRule :=
          List.map_map.symm
      _ = ((Segment.ofRule rule).map Segment.render).map Segment.ofRule :=
          congrArg (List.map Segment.ofRule) raws
      _ = (Segment.ofRule rule).map (fun segment => [segment]) := by
          rw [List.map_map]
          exact List.map_congr_left alone
  · exact (congrArg (generateEach fields · source) raws).trans
      (generateEach_render alone fields source)

/-- Stray parentheses stand in no record, and a parenthesis inside a group stays there. -/
example :
    (explain "()a)((x[2])(rn[1]".toList none (.cycle #[7])).segments.map (·.raw) =
      ["a".toList, "((x[2])".toList, "rn[1]".toList] := by decide

end FormFill
