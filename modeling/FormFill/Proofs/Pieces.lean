import FormFill.Rule.Segment
import Mathlib.Data.List.Chain
import Mathlib.Data.List.TakeWhile

/-! # Cutting a rule into pieces

Every character of a rule stands in one piece: a run of text, a group, or a stray parenthesis. What
a piece may hold and what may follow it is said here without the scan that finds it. A rule has
exactly one cut into pieces that fit, and its segments are the runs and the groups of that cut, so
stray parentheses are all that a rule loses.
-/

namespace FormFill

/-- A piece of a rule as it stands in the text. -/
inductive Piece where
  | run (text : Text)
  | group (content : Text)
  | strayOpening
  | strayClosing
deriving DecidableEq

namespace Piece

open Segment (isParenthesis contents? ofRule)

/-- The characters of a piece. -/
def render : Piece → Text
  | .run text => text
  | .group content => '(' :: content ++ [')']
  | .strayOpening => ['(']
  | .strayClosing => [')']

/-- Whether a piece can stand before the text `rest`. -/
def Fits (piece : Piece) (rest : Text) : Prop :=
  match piece with
  | .run text => text ≠ [] ∧ (∀ c ∈ text, isParenthesis c = false) ∧
      ∀ c ∈ rest.head?, isParenthesis c = true
  | .group content => content ≠ [] ∧ ')' ∉ content
  | .strayOpening => rest.head? = some ')' ∨ ')' ∉ rest
  | .strayClosing => True

/-- The segment that a piece gives; a stray parenthesis gives none. -/
def segment? : Piece → Option Segment
  | .run text => some (.literal text)
  | .group content => some (.group content)
  | .strayOpening => none
  | .strayClosing => none

/-- Whether a piece is a run of text. -/
def isRun : Piece → Bool
  | .run _ => true
  | _ => false

/-- The piece at the front of a text that begins with `c`. -/
def atFront (c : Char) (rest : Text) : Piece :=
  if c = '(' then
    match contents? rest with
    | some content => .group content
    | none => .strayOpening
  else if c = ')' then .strayClosing
  else .run (c :: rest.takeWhile (!isParenthesis ·))

/-- A stray opening parenthesis opens no group. -/
theorem contents?_of_stray {rest : Text} (fits : Fits .strayOpening rest) :
    contents? rest = none := by
  rcases fits with closing | unclosed
  · cases rest with
    | nil => rfl
    | cons c rest =>
      obtain rfl : c = ')' := by simpa using closing
      rfl
  · unfold contents?
    cases rest.takeWhile (· != ')') with
    | nil => rfl
    | cons c content => exact if_neg unclosed

/-- A piece that fits is found at the front. -/
theorem atFront_of_fits {piece : Piece} {rest text : Text} {c : Char} (fits : piece.Fits rest)
    (front : piece.render ++ rest = c :: text) : atFront c text = piece := by
  cases piece with
  | run run =>
    obtain ⟨nonempty, plain, stop⟩ := fits
    cases run with
    | nil => contradiction
    | cons d more =>
      obtain ⟨rfl, rfl⟩ := List.cons.inj front
      obtain ⟨notOpening, notClosing⟩ :=
        Segment.isParenthesis_eq_false (plain d List.mem_cons_self)
      have taken : (more ++ rest).takeWhile (!isParenthesis ·) = more :=
        Segment.takeWhile_plain (fun c member => plain c (List.mem_cons_of_mem _ member)) stop
      rw [atFront, if_neg notOpening, if_neg notClosing]
      exact congrArg (fun inside => Piece.run (d :: inside)) taken
  | group content =>
    simp only [render, List.cons_append, List.append_assoc, List.nil_append] at front
    obtain ⟨rfl, rfl⟩ := List.cons.inj front
    rw [atFront, if_pos rfl, Segment.contents?_append_closing rest fits.1 fits.2]
  | strayOpening =>
    obtain ⟨rfl, rfl⟩ := List.cons.inj front
    have stray : contents? rest = none := contents?_of_stray fits
    rw [atFront, if_pos rfl]
    exact congrArg (fun found => match found with
      | some content => Piece.group content
      | none => .strayOpening) stray
  | strayClosing =>
    obtain ⟨rfl, rfl⟩ := List.cons.inj front
    rfl

/-- Some piece fits at the front of every text that is not empty. -/
theorem exists_front (c : Char) (rest : Text) :
    ∃ piece after, c :: rest = render piece ++ after ∧ piece.Fits after := by
  by_cases opening : c = '('
  · subst opening
    by_cases closed : ')' ∈ rest
    · obtain ⟨content, after, rfl, first⟩ := List.eq_append_cons_of_mem closed
      cases content with
      | nil => exact ⟨.strayOpening, ')' :: after, rfl, .inl rfl⟩
      | cons d content =>
        exact ⟨.group (d :: content), after, by simp [render], List.cons_ne_nil _ _, first⟩
    · exact ⟨.strayOpening, rest, rfl, .inr closed⟩
  by_cases closing : c = ')'
  · subst closing
    exact ⟨.strayClosing, rest, rfl, trivial⟩
  · have whole := List.takeWhile_append_dropWhile (p := (!isParenthesis ·)) (l := rest)
    refine ⟨.run (c :: rest.takeWhile (!isParenthesis ·)), rest.dropWhile (!isParenthesis ·),
      by simp [render, whole], List.cons_ne_nil _ _, ?_, ?_⟩
    · intro d member
      rcases List.mem_cons.mp member with rfl | inside
      · simp [isParenthesis, opening, closing]
      · simpa using List.mem_takeWhile_imp inside
    · simpa using Text.dropWhile_stop (!isParenthesis ·) rest

theorem render_ne_nil {piece : Piece} {rest : Text} (fits : piece.Fits rest) :
    piece.render ≠ [] := by
  cases piece with
  | run text => exact fits.1
  | group content => exact List.cons_ne_nil _ _
  | strayOpening => exact List.cons_ne_nil _ _
  | strayClosing => exact List.cons_ne_nil _ _

/-- What is written fixes the first piece and the text after it. -/
theorem front_unique {left right : Piece} {leftRest rightRest : Text} (leftFits : left.Fits leftRest)
    (rightFits : right.Fits rightRest)
    (same : left.render ++ leftRest = right.render ++ rightRest) :
    left = right ∧ leftRest = rightRest := by
  cases front : right.render ++ rightRest with
  | nil => exact absurd (List.append_eq_nil_iff.mp front).1 (render_ne_nil rightFits)
  | cons c text =>
    obtain rfl : left = right :=
      (atFront_of_fits leftFits (same.trans front)).symm.trans (atFront_of_fits rightFits front)
    exact ⟨rfl, List.append_cancel_left same⟩

/-- The segments of a rule are the segment of its first piece and those of the text after it. -/
theorem ofRule_render_append {piece : Piece} {rest : Text} (fits : piece.Fits rest) :
    ofRule (piece.render ++ rest) = piece.segment?.toList ++ ofRule rest := by
  cases piece with
  | run text => exact Segment.ofRule_run fits.1 fits.2.1 fits.2.2
  | group content =>
    simpa [render, segment?] using Segment.ofRule_group rest fits.1 fits.2
  | strayOpening => exact Segment.ofRule_opening (contents?_of_stray fits)
  | strayClosing => exact Segment.ofRule_closing rest

/-- The text of pieces that stand one after another. -/
def renderAll (pieces : List Piece) : Text := pieces.flatMap render

@[simp] theorem renderAll_nil : renderAll [] = [] := rfl

@[simp] theorem renderAll_cons (piece : Piece) (pieces : List Piece) :
    renderAll (piece :: pieces) = piece.render ++ renderAll pieces := rfl

/-- Every piece fits before the pieces after it. -/
def WellPlaced : List Piece → Prop
  | [] => True
  | piece :: pieces => piece.Fits (renderAll pieces) ∧ WellPlaced pieces

/-- A cut of a rule: pieces that make up the rule, each of which fits where it stands. -/
structure IsCut (pieces : List Piece) (rule : Text) : Prop where
  whole : renderAll pieces = rule
  placed : WellPlaced pieces

theorem exists_cut (rule : Text) : ∃ pieces, IsCut pieces rule := by
  cases rule with
  | nil => exact ⟨[], rfl, trivial⟩
  | cons c rest =>
    obtain ⟨piece, after, whole, fits⟩ := exists_front c rest
    have shorter : after.length < (c :: rest).length := by
      have positive := List.length_pos_iff.mpr (render_ne_nil fits)
      rw [whole, List.length_append]
      omega
    obtain ⟨pieces, rfl, placed⟩ := exists_cut after
    exact ⟨piece :: pieces, whole.symm, fits, placed⟩
termination_by rule.length
decreasing_by exact shorter

/-- Well-placed pieces are told apart by their text. -/
theorem WellPlaced.unique {left right : List Piece} (leftPlaced : WellPlaced left)
    (rightPlaced : WellPlaced right) (same : renderAll left = renderAll right) : left = right := by
  induction left generalizing right with
  | nil =>
    cases right with
    | nil => rfl
    | cons piece pieces =>
      exact absurd (List.append_eq_nil_iff.mp same.symm).1 (render_ne_nil rightPlaced.1)
  | cons piece pieces ih =>
    cases right with
    | nil => exact absurd (List.append_eq_nil_iff.mp same).1 (render_ne_nil leftPlaced.1)
    | cons other others =>
      obtain ⟨rfl, rest⟩ := front_unique leftPlaced.1 rightPlaced.1 same
      rw [ih leftPlaced.2 rightPlaced.2 rest]

/-- After a run comes a parenthesis or nothing, so no run follows it. -/
theorem WellPlaced.runs_apart {pieces : List Piece} (placed : WellPlaced pieces) :
    pieces.IsChain fun piece next => ¬ (piece.isRun ∧ next.isRun) := by
  induction pieces with
  | nil => exact .nil
  | cons piece pieces ih =>
    refine List.isChain_cons.mpr ⟨?_, ih placed.2⟩
    rintro next first ⟨run, nextRun⟩
    cases pieces with
    | nil => contradiction
    | cons other others =>
      obtain rfl : other = next := by simpa using first
      cases piece <;> cases other <;> try contradiction
      next text more =>
        obtain ⟨⟨-, -, stop⟩, ⟨nonempty, plain, -⟩, -⟩ := placed
        cases more with
        | nil => contradiction
        | cons c more =>
          have parenthesis : isParenthesis c = true := stop c rfl
          rw [plain c List.mem_cons_self] at parenthesis
          contradiction

theorem WellPlaced.ofRule_renderAll {pieces : List Piece} (placed : WellPlaced pieces) :
    ofRule (renderAll pieces) = pieces.filterMap segment? := by
  induction pieces with
  | nil => rfl
  | cons piece pieces ih =>
    rw [renderAll_cons, ofRule_render_append placed.1, ih placed.2]
    cases found : piece.segment? <;> simp [found]

theorem render_of_segment? {piece : Piece} {segment : Segment}
    (kept : piece.segment? = some segment) : segment.render = piece.render := by
  cases piece with
  | run text => cases kept; rfl
  | group content => cases kept; rfl
  | strayOpening => contradiction
  | strayClosing => contradiction

/-- The segments of pieces are written as the pieces are, without the stray parentheses. -/
theorem render_segments (pieces : List Piece) :
    (pieces.filterMap segment?).flatMap Segment.render =
      renderAll (pieces.filter (·.segment?.isSome)) := by
  induction pieces with
  | nil => rfl
  | cons piece pieces ih =>
    cases found : piece.segment? with
    | none => simp [found, ih]
    | some segment => simp [found, render_of_segment? found, ih]

/-- A rule has exactly one cut, no two runs of which touch, and its segments are the runs and the
groups of that cut in order. Only stray parentheses are dropped; all else is written as it was. -/
theorem existsUnique_cut_ofRule (rule : Text) :
    ∃ pieces, IsCut pieces rule ∧ (pieces.IsChain fun piece next => ¬ (piece.isRun ∧ next.isRun)) ∧
      (∀ other, IsCut other rule → other = pieces) ∧
      ofRule rule = pieces.filterMap segment? ∧
      (ofRule rule).flatMap Segment.render = renderAll (pieces.filter (·.segment?.isSome)) := by
  obtain ⟨pieces, whole, placed⟩ := exists_cut rule
  have segments : ofRule rule = pieces.filterMap segment? := by
    rw [← whole]
    exact placed.ofRule_renderAll
  refine ⟨pieces, ⟨whole, placed⟩, placed.runs_apart, ?_, segments, ?_⟩
  · intro other cut
    exact cut.placed.unique placed (cut.whole.trans whole.symm)
  · rw [segments]
    exact render_segments pieces

end Piece

end FormFill
