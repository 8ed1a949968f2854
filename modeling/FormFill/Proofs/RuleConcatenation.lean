import FormFill.Generation
import FormFill.Proofs.Pieces
import FormFill.Random.ChaCha

/-! # Generation over concatenated rules

The segments of two rules written one after the other are not the segments of each: runs of text
merge where the rules meet, and a parenthesis left open in the front can close in the back. When the
front closes every parenthesis that it opens, only the merging remains, and it changes neither the
output nor the words drawn.
-/

namespace FormFill

namespace Segment

/-- Every opening parenthesis of the rule has a closing one after it. -/
def Closed (rule : Text) : Prop :=
  ∀ before after, rule = before ++ '(' :: after → ')' ∈ after

theorem Closed.of_append {front back : Text} (closed : Closed (front ++ back)) : Closed back := by
  rintro before after rfl
  exact closed (front ++ before) after (by simp)

theorem closed_nil : Closed [] := by
  intro before after whole
  exact absurd (List.append_eq_nil_iff.mp whole.symm).2 (List.cons_ne_nil _ _)

theorem closed_cons {c : Char} {rest : Text} :
    Closed (c :: rest) ↔ (c = '(' → ')' ∈ rest) ∧ Closed rest := by
  constructor
  · intro closed
    have whole : Closed ([c] ++ rest) := closed
    refine ⟨?_, whole.of_append⟩
    rintro rfl
    exact closed [] rest rfl
  · rintro ⟨here, closed⟩ before after whole
    cases before with
    | nil =>
      obtain ⟨rfl, rfl⟩ := List.cons.inj whole
      exact here rfl
    | cons d before => exact closed before after (List.cons.inj whole).2

instance decidableClosed : DecidablePred Closed
  | [] => .isTrue closed_nil
  | _ :: rest =>
    have := decidableClosed rest
    decidable_of_iff _ closed_cons.symm

/-- A run resolves in the same way whether or not the text after it continues the run. -/
theorem resolveAll_run_append {run : Text} (nonempty : run ≠ [])
    (plain : ∀ c ∈ run, isParenthesis c = false) (rest : Text) (fields : Option FieldMap)
    (source : Source) :
    resolveAll fields (ofRule (run ++ rest)) source =
      resolveAll fields (.literal run :: ofRule rest) source := by
  obtain ⟨pieces, rfl, placed⟩ := Piece.exists_cut rest
  have apart : (∀ c ∈ (Piece.renderAll pieces).head?, isParenthesis c = true) →
      ofRule (run ++ Piece.renderAll pieces) = .literal run :: ofRule (Piece.renderAll pieces) :=
    ofRule_run nonempty plain
  cases pieces with
  | nil => rw [apart (by simp)]
  | cons piece pieces =>
    cases piece with
    | run text =>
      -- Only here do the runs merge: one literal on the left, two of the same text on the right.
      obtain ⟨-, textPlain, stop⟩ := placed.1
      have joined : ofRule ((run ++ text) ++ Piece.renderAll pieces) =
          .literal (run ++ text) :: ofRule (Piece.renderAll pieces) := by
        refine ofRule_run (by simp [nonempty]) ?_ stop
        intro c member
        exact (List.mem_append.mp member).elim (plain c) (textPlain c)
      have alone := Piece.ofRule_render_append placed.1
      rw [Piece.renderAll_cons, alone]
      simp only [Piece.render, ← List.append_assoc, joined]
      simp [Piece.segment?, resolveAll, resolve, List.append_assoc]
    | group content => rw [apart (by simp [Piece.render, isParenthesis])]
    | strayOpening => rw [apart (by simp [Piece.render, isParenthesis])]
    | strayClosing => rw [apart (by simp [Piece.render, isParenthesis])]

/-- A piece of a closed front resolves in the same way when more text follows the front. -/
theorem resolveAll_render_append {piece : Piece} {rest : Text} (fits : piece.Fits rest)
    (closed : Closed (piece.render ++ rest)) (back : Text) (fields : Option FieldMap)
    (source : Source) :
    resolveAll fields (ofRule (piece.render ++ (rest ++ back))) source =
      resolveAll fields (piece.segment?.toList ++ ofRule (rest ++ back)) source := by
  cases piece with
  | run text => exact resolveAll_run_append fits.1 fits.2.1 _ fields source
  | group content =>
    have stays : (Piece.group content).Fits (rest ++ back) := fits
    rw [Piece.ofRule_render_append stays]
  | strayOpening =>
    -- An opening that nothing closes could be closed by `back`; a closed front has none.
    have inside : ')' ∈ rest := closed [] rest rfl
    have stays : Piece.strayOpening.Fits (rest ++ back) := by
      rcases fits with closing | unclosed
      · exact .inl (by simp [List.head?_append, closing])
      · exact absurd inside unclosed
    rw [Piece.ofRule_render_append stays]
  | strayClosing =>
    have stays : Piece.strayClosing.Fits (rest ++ back) := trivial
    rw [Piece.ofRule_render_append stays]

/-- The segments of a closed front and of a back resolve together as they do in one rule. -/
theorem resolveAll_ofRule_append {front : Text} (closed : Closed front) (back : Text)
    (fields : Option FieldMap) (source : Source) :
    resolveAll fields (ofRule (front ++ back)) source =
      resolveAll fields (ofRule front ++ ofRule back) source := by
  obtain ⟨pieces, rfl, placed⟩ := Piece.exists_cut front
  induction pieces generalizing source with
  | nil => rfl
  | cons piece pieces ih =>
    rw [Piece.renderAll_cons, Piece.ofRule_render_append placed.1, List.append_assoc,
      List.append_assoc, resolveAll_render_append placed.1 closed back fields source,
      resolveAll_append, resolveAll_append fields piece.segment?.toList,
      ih _ placed.2 closed.of_append]

end Segment

/-- A run in front of a rule is copied, and nothing is drawn for it. -/
theorem generate_run_append {run : Text} (plain : ∀ c ∈ run, Segment.isParenthesis c = false)
    (rest : Text) (fields : Option FieldMap) (source : Source) :
    generate (run ++ rest) fields source =
      (run ++ (generate rest fields source).1, (generate rest fields source).2) := by
  cases run with
  | nil => rfl
  | cons c more =>
    rw [generate, Segment.resolveAll_run_append (List.cons_ne_nil c more) plain]
    rfl

theorem generate_run {run : Text} (plain : ∀ c ∈ run, Segment.isParenthesis c = false)
    (fields : Option FieldMap) (source : Source) : generate run fields source = (run, source) := by
  have copied := generate_run_append plain [] fields source
  have nothing : generate [] fields source = ([], source) := rfl
  rwa [nothing, List.append_nil] at copied

/-- A group in front of a rule is resolved, and the rule goes on with the source as it is left. -/
theorem generate_group_append {content : Text} (nonempty : content ≠ []) (enclosed : ')' ∉ content)
    (rest : Text) (fields : Option FieldMap) (source : Source) :
    let found := (Generator.parse content).resolve fields source
    generate ('(' :: content ++ ')' :: rest) fields source =
      (found.1.output ++ (generate rest fields found.2).1, (generate rest fields found.2).2) := by
  intro found
  rw [generate, Segment.ofRule_group rest nonempty enclosed]
  rfl

/-- Between runs of text a group is resolved as if it stood alone. -/
theorem generate_group_between {front content back : Text}
    (frontPlain : ∀ c ∈ front, Segment.isParenthesis c = false)
    (backPlain : ∀ c ∈ back, Segment.isParenthesis c = false) (nonempty : content ≠ [])
    (enclosed : ')' ∉ content) (fields : Option FieldMap) (source : Source) :
    let found := (Generator.parse content).resolve fields source
    generate (front ++ '(' :: content ++ ')' :: back) fields source =
      (front ++ found.1.output ++ back, found.2) := by
  intro found
  rw [List.append_assoc, generate_run_append frontPlain,
    generate_group_append nonempty enclosed, generate_run backPlain, List.append_assoc]

/-- Generating a closed rule and another one written after it is generating the first and then, with
the source as the first leaves it, the second. -/
theorem generate_append {front : Text} (closed : Segment.Closed front) (back : Text)
    (fields : Option FieldMap) (source : Source) :
    generate (front ++ back) fields source =
      ((generate front fields source).1 ++
          (generate back fields (generate front fields source).2).1,
        (generate back fields (generate front fields source).2).2) := by
  unfold generate
  rw [Segment.resolveAll_ofRule_append closed, Segment.resolveAll_append]

/-- The runs `y` and `z` merge, and the closing parenthesis of the back closes nothing. -/
theorem generate_append_merging :
    let front := "()x(rn[2])y".toList
    let back := "z)(rc[1])".toList
    let first := generate front none (.seeded 7)
    let second := generate back none first.2
    Segment.Closed front ∧
      generate (front ++ back) none (.seeded 7) = (first.1 ++ second.1, second.2) :=
  ⟨by decide, generate_append (by decide) _ _ _⟩

end FormFill
