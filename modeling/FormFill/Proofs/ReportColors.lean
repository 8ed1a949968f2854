import FormFill.Command.Elapsed
import FormFill.Command.Report
import Mathlib.Algebra.Group.Nat.Defs

/-! # Colour in reports

A terminal sequence is an escape, a bracket, and all that follows up to the next `m`. A coloured
text decorates a plain one when stripping it of sequences gives the plain one, whatever stands
behind it. Texts without an escape decorate themselves, a painted text decorates the text that is
painted, and decorated texts can be put one after another; a report is made of nothing else.
-/

namespace FormFill

namespace Report

/-- The character that begins a terminal sequence. -/
def escape : Char := '\x1b'

/-- Take the terminal sequences out of a text that begins inside or outside of one. An escape that
begins no sequence stays. -/
def stripFrom (inside : Bool) : Text → Text
  | [] => []
  | c :: rest =>
    if inside then stripFrom (c != 'm') rest
    else if c = escape ∧ rest.head? = some '[' ∧ 'm' ∈ rest then stripFrom true rest
    else c :: stripFrom false rest

/-- A text without its terminal sequences. -/
def strip (text : Text) : Text := stripFrom false text

/-- Whether a text has no escape. -/
def IsPlain (text : Text) : Prop := escape ∉ text

instance : DecidablePred IsPlain := fun text => inferInstanceAs (Decidable (escape ∉ text))

/-- Whether stripping the first text gives the second, whatever stands behind it. -/
def Decorates (colored plain : Text) : Prop :=
  ∀ rest, strip (colored ++ rest) = plain ++ strip rest

theorem stripFrom_run {run : Text} (unended : 'm' ∉ run) (rest : Text) :
    stripFrom true (run ++ 'm' :: rest) = strip rest := by
  induction run with
  | nil => rfl
  | cons c run ih =>
    obtain ⟨other, unended⟩ : 'm' ≠ c ∧ 'm' ∉ run := by simpa using unended
    have unended' : (c != 'm') = true := by simpa using other.symm
    simp [stripFrom, unended', ih unended]

theorem strip_sequence {parameters : Text} (unended : 'm' ∉ parameters) (rest : Text) :
    strip (sequence parameters ++ rest) = strip rest := by
  have inside := stripFrom_run unended rest
  simp [strip, sequence, stripFrom, escape] at inside ⊢
  exact inside

section Texts

variable {text other : Text}

theorem IsPlain.append (front : IsPlain text) (back : IsPlain other) : IsPlain (text ++ other) := by
  simpa [IsPlain] using ⟨front, back⟩

theorem isPlain_ofNat (n : Nat) : IsPlain (Text.ofNat n) := fun member =>
  absurd (Text.isDigit_of_mem_ofNat member) (by decide)

theorem isPlain_replicate {c : Char} (apart : c ≠ escape) (count : Nat) :
    IsPlain (List.replicate count c) :=
  fun member => apart (List.eq_of_mem_replicate member).symm

theorem isPlain_label (kind : SegmentKind) : IsPlain kind.label := by
  cases kind <;> decide

theorem IsPlain.between (plain : IsPlain text) : IsPlain (between text) :=
  IsPlain.append (.append (by decide : IsPlain ['"']) plain) (by decide : IsPlain ['"'])

theorem IsPlain.column (plain : IsPlain text) (width : Nat) : IsPlain (column width text) :=
  plain.append (isPlain_replicate (by decide) _)

end Texts

namespace Decorates

variable {colored plain otherColored otherPlain text : Text}

theorem strip_eq (decorates : Decorates colored plain) : strip colored = plain := by
  simpa [strip, stripFrom] using decorates []

theorem append (front : Decorates colored plain) (back : Decorates otherColored otherPlain) :
    Decorates (colored ++ otherColored) (plain ++ otherPlain) := by
  intro rest
  rw [List.append_assoc, front, back, List.append_assoc]

theorem of_plain (plain : IsPlain text) : Decorates text text := by
  intro rest
  induction text with
  | nil => rfl
  | cons c text ih =>
    obtain ⟨other, plain⟩ : escape ≠ c ∧ escape ∉ text := by simpa [IsPlain] using plain
    have further : stripFrom false (text ++ rest) = text ++ strip rest := ih plain
    simp [strip, stripFrom, other.symm, further]

theorem nil : Decorates [] [] := fun _ => rfl

theorem line (decorates : Decorates colored plain) :
    Decorates (line colored) (line plain) :=
  decorates.append (of_plain (by decide))

/-- Paint goes and what is painted stays. -/
theorem paint (tone : Tone) (plain : IsPlain text) :
    Decorates (paint true tone text) (paint false tone text) := by
  have unended : 'm' ∉ tone.parameters := by cases tone <;> decide
  intro rest
  calc strip (sequence tone.parameters ++ text ++ sequence ['0'] ++ rest)
      = strip (sequence tone.parameters ++ (text ++ (sequence ['0'] ++ rest))) := by
        simp only [List.append_assoc]
    _ = strip (text ++ (sequence ['0'] ++ rest)) := strip_sequence unended _
    _ = text ++ strip (sequence ['0'] ++ rest) := of_plain plain _
    _ = text ++ strip rest := by rw [strip_sequence (by decide)]

theorem title {name : Text} (plain : IsPlain name) :
    Decorates (title true name) (title false name) :=
  paint .section (.append (.append (by decide) plain) (by decide))

end Decorates

/-- A record of a segment whose texts have no escape. -/
structure PlainSegment (trace : SegmentTrace) : Prop where
  raw : IsPlain trace.raw
  output : IsPlain trace.output

/-- A record of a rule whose texts have no escape. -/
structure PlainTrace (trace : Trace) : Prop where
  rule : IsPlain trace.rule
  value : IsPlain trace.value
  segments : ∀ segment ∈ trace.segments, PlainSegment segment

namespace Decorates

/-- The columns of a segment's line are filled up before anything is painted. -/
theorem segment {trace : SegmentTrace} (plain : PlainSegment trace) (index : Nat) :
    Decorates (segment true index trace) (segment false index trace) := by
  have space : Decorates [' '] [' '] := of_plain (by decide)
  have number : IsPlain ('[' :: Text.ofNat index ++ [']']) :=
    .append (.append (by decide : IsPlain ['[']) (isPlain_ofNat index)) (by decide)
  have raw : Decorates (' ' :: column 24 trace.raw) (' ' :: column 24 trace.raw) :=
    space.append (of_plain (plain.raw.column 24))
  have kind := space.append (paint (.ofKind trace.kind) (isPlain_label trace.kind))
  have output : Decorates (Report.line ("      → ".toList ++ between trace.output))
      (Report.line ("      → ".toList ++ between trace.output)) :=
    (of_plain (.append (by decide) plain.output.between)).line
  have indent : Decorates "  ".toList "  ".toList := of_plain (by decide)
  exact (((indent.append (paint .muted number)).append raw).append kind).line.append output

theorem segments {traces : List SegmentTrace} (plain : ∀ trace ∈ traces, PlainSegment trace)
    (index : Nat) : Decorates (segments true index traces) (segments false index traces) := by
  induction traces generalizing index with
  | nil => exact nil
  | cons trace rest ih =>
    obtain ⟨first, others⟩ := List.forall_mem_cons.mp plain
    exact (segment first index).append (ih others (index + 1))

theorem segmentPart {traces : List SegmentTrace} (plain : ∀ trace ∈ traces, PlainSegment trace) :
    Decorates (segmentPart true traces) (segmentPart false traces) := by
  unfold Report.segmentPart
  split
  · exact (paint .muted (by decide)).line
  · exact segments plain 0

theorem skippedPart (traces : List SegmentTrace) :
    Decorates (skippedPart true traces) (skippedPart false traces) := by
  unfold Report.skippedPart
  dsimp only
  split
  · exact nil
  · have warning := paint .warning (.append (isPlain_ofNat (traces.countP (·.kind = .skipped)))
      (by decide : IsPlain " generator(s) skipped: no field map was supplied".toList))
    exact nil.line.append warning.line

theorem resultPart {trace : Trace} (plain : PlainTrace trace) {value : Text}
    (plainValue : IsPlain value) :
    Decorates (resultPart true trace value) (resultPart false trace value) := by
  have indent : Decorates "  ".toList "  ".toList := of_plain (by decide)
  refine (indent.append (paint .value plainValue.between)).line.append ?_
  split
  · exact nil
  · have before : IsPlain ("before padding: ".toList ++ between trace.value) :=
      .append (by decide) plain.value.between
    exact (indent.append (paint .muted before)).line

/-- A coloured report decorates the report without colour. -/
theorem render {trace : Trace} (plain : PlainTrace trace) {value elapsed : Text}
    (plainValue : IsPlain value) (plainElapsed : IsPlain elapsed) :
    Decorates (render true trace value elapsed) (render false trace value elapsed) := by
  have heading := paint .heading
    (.append (by decide : IsPlain "⚙  Rule: ".toList) plain.rule.between)
  have listed := title (by decide : IsPlain "Segments".toList)
  have result := title (by decide : IsPlain "Result".toList)
  have timing := title (by decide : IsPlain "Timing".toList)
  have total := of_plain (.append (by decide : IsPlain "  Total: ".toList) plainElapsed)
  have top := ((nil.line.append heading.line).append nil.line).append listed.line
  have middle := (top.append (segmentPart plain.segments)).append (skippedPart trace.segments)
  have bottom := ((middle.append nil.line).append result.line).append (resultPart plain plainValue)
  exact (((bottom.append nil.line).append timing.line).append total.line).append nil.line

end Decorates

end Report

namespace Elapsed

open Report (IsPlain)

theorem isPlain_decimal (count places : Nat) : IsPlain (decimal count places) := by
  have fraction : IsPlain
      (List.replicate (places - (Text.ofNat (count % 10 ^ places)).length) '0' ++
        Text.ofNat (count % 10 ^ places)) :=
    .append (Report.isPlain_replicate (by decide) _) (Report.isPlain_ofNat _)
  refine .append (Report.isPlain_ofNat _) ?_
  split
  · decide
  · refine .append (by decide : IsPlain ['.']) fun member => fraction ?_
    exact List.mem_reverse.mp ((List.dropWhile_sublist _).mem (List.mem_reverse.mp member))

theorem isPlain_text (nanoseconds : Nat) : IsPlain (text nanoseconds) := by
  unfold text
  split
  · exact (isPlain_decimal _ _).append (by decide)
  split
  · exact (isPlain_decimal _ _).append (by decide)
  split
  · exact (isPlain_decimal _ _).append (by decide)
  · exact (isPlain_decimal _ _).append (by decide)

end Elapsed

namespace Report

/-- Stripping a coloured report gives the report without colour, if no text in it has an escape. -/
theorem strip_render {trace : Trace} {value : Text} (plain : PlainTrace trace)
    (plainValue : IsPlain value) (nanoseconds : Nat) :
    strip (render true trace value (Elapsed.text nanoseconds)) =
      render false trace value (Elapsed.text nanoseconds) :=
  (Decorates.render plain plainValue (Elapsed.isPlain_text nanoseconds)).strip_eq

/-- Brackets, digits and the letter that ends a sequence stay where no escape begins one: in the
rule, in a raw text beyond its column, in a skipped generator and in a padded value. -/
theorem strip_render_skipped :
    let trace : Trace :=
      ⟨"[1m(n)a".toList, "a[0m".toList,
        [⟨"(n[0;36m that is wider than its column)".toList, .skipped, []⟩,
          ⟨"a".toList, .literal, "a[0m".toList⟩]⟩
    let value := "a[0m--".toList
    PlainTrace trace ∧ IsPlain value ∧
      render true trace value (Elapsed.text 1500) ≠ render false trace value (Elapsed.text 1500) ∧
      strip (render true trace value (Elapsed.text 1500)) =
        render false trace value (Elapsed.text 1500) := by
  intro trace value
  have plain : PlainTrace trace := by
    refine ⟨by decide, by decide, fun segment member => ?_⟩
    simp only [trace, List.mem_cons, List.not_mem_nil, or_false] at member
    rcases member with rfl | rfl <;> exact ⟨by decide, by decide⟩
  have plainValue : IsPlain value := by decide
  exact ⟨plain, plainValue, by decide, strip_render plain plainValue 1500⟩

end Report

end FormFill
