import FormFill.Generation

/-! # Reports

The report of a generation lists its segments, the result and the time taken. With colour every
piece of it stands between a terminal sequence for its tone and the sequence that ends all tones;
nothing else changes, so the columns stay aligned.
-/

namespace FormFill

/-- What a piece of a report is. -/
inductive Tone where
  | heading
  | section
  | muted
  | warning
  | value
  | random
  | field
deriving DecidableEq

namespace Tone

/-- The terminal's parameters for a tone. -/
def parameters : Tone → Text
  | .heading => "1;36".toList
  | .section | .muted => "90".toList
  | .warning => "33".toList
  | .value => "1;32".toList
  | .random => "36".toList
  | .field => "34".toList

/-- The tone of a segment's kind. -/
def ofKind : SegmentKind → Tone
  | .literal => .muted
  | .skipped => .warning
  | .randomDigits | .randomLetters => .random
  | .duplicate | .duplicateField | .reference => .field

end Tone

namespace Report

/-- The terminal sequence with these parameters. -/
def sequence (parameters : Text) : Text := '\x1b' :: '[' :: parameters ++ ['m']

/-- A piece of text in its tone. -/
def paint (color : Bool) (tone : Tone) (text : Text) : Text :=
  if color then sequence tone.parameters ++ text ++ sequence ['0'] else text

/-- A line of text with its end. -/
def line (text : Text) : Text := text ++ ['\n']

/-- The title of a part of the report. -/
def title (color : Bool) (name : Text) : Text :=
  paint color .section ("━━━ ".toList ++ name ++ " ━━━".toList)

/-- A text filled with spaces up to a width. -/
def column (width : Nat) (text : Text) : Text :=
  text ++ List.replicate (width - text.length) ' '

/-- A text between double quotes, as it is. -/
def between (text : Text) : Text := '"' :: text ++ ['"']

/-- The two lines of a segment. -/
def segment (color : Bool) (index : Nat) (trace : SegmentTrace) : Text :=
  line ("  ".toList ++ paint color .muted ('[' :: Text.ofNat index ++ [']']) ++ ' ' ::
      column 24 trace.raw ++ ' ' :: paint color (.ofKind trace.kind) trace.kind.label) ++
    line ("      → ".toList ++ between trace.output)

/-- The lines of segments, numbered from `index` on. -/
def segments (color : Bool) : Nat → List SegmentTrace → Text
  | _, [] => []
  | index, trace :: rest => segment color index trace ++ segments color (index + 1) rest

/-- The lines of all segments, or one that says that there are none. -/
def segmentPart (color : Bool) (traces : List SegmentTrace) : Text :=
  if traces.isEmpty then line (paint color .muted "  No segments".toList)
  else segments color 0 traces

/-- The warning about skipped generators, if there are any. -/
def skippedPart (color : Bool) (traces : List SegmentTrace) : Text :=
  let skipped := traces.countP (·.kind = .skipped)
  if skipped = 0 then []
  else
    line [] ++ line (paint color .warning
      (Text.ofNat skipped ++ " generator(s) skipped: no field map was supplied".toList))

/-- The final value, and the value before padding when it differs. -/
def resultPart (color : Bool) (trace : Trace) (value : Text) : Text :=
  line ("  ".toList ++ paint color .value (between value)) ++
    if value = trace.value then []
    else line ("  ".toList ++ paint color .muted ("before padding: ".toList ++ between trace.value))

/-- The whole report of a generation: `value` is its result after padding, `elapsed` the time taken.
-/
def render (color : Bool) (trace : Trace) (value elapsed : Text) : Text :=
  line [] ++ line (paint color .heading ("⚙  Rule: ".toList ++ between trace.rule)) ++
    line [] ++ line (title color "Segments".toList) ++ segmentPart color trace.segments ++
    skippedPart color trace.segments ++
    line [] ++ line (title color "Result".toList) ++ resultPart color trace value ++
    line [] ++ line (title color "Timing".toList) ++ line ("  Total: ".toList ++ elapsed) ++ line []

end Report

end FormFill
