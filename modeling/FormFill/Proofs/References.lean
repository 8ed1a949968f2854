import FormFill.Proofs.RuleConcatenation
import FormFill.Proofs.RuleForms

/-! # References inside rules

A group of neither the random nor the repetition form refers to a field. Its contents are read as
they are when they stand alone as an expression, so a reference and a direct extraction give the
same text. That text is copied: parentheses that come out of a field open no group of their own.
-/

namespace FormFill

namespace Expression

/-- The part of a field's display text that an expression picks: all of it without a selector. -/
def pick (expression : Expression) (text : Text) : Text :=
  match expression.selector with
  | some selector => selector.apply text
  | none => text

/-- Of the fields an expression sees the display text of its own field only. -/
theorem extract_eq_pick (expression : Expression) (fields : FieldMap) :
    expression.extract fields = expression.pick (fields.displayOf expression.field) := rfl

theorem extract_insert (expression : Expression) (fields : FieldMap) (value : FieldValue) :
    expression.extract (fields.insert expression.field value) = expression.pick value.display := by
  rw [extract_eq_pick, FieldMap.displayOf, NameMap.get?_insert_self]

end Expression

/-- Between texts without parentheses a reference gives what extracting its contents gives, and
nothing without a field map; either way nothing is drawn. Whatever value its field has, the part of
the display text that the expression picks stands in the result as it is. -/
theorem generate_reference (front back content : Text)
    (frontPlain : '(' ∉ front ∧ ')' ∉ front) (backPlain : '(' ∉ back ∧ ')' ∉ back)
    (nonempty : content ≠ []) (enclosed : ')' ∉ content) (notRandom : ¬ content.IsRandomForm)
    (notRepetition : ¬ content.IsRepetitionForm) (fields : FieldMap) (source : Source) :
    let rule := front ++ '(' :: content ++ ')' :: back
    let expression := Expression.parse content
    generate rule (some fields) source = (front ++ extract content fields ++ back, source) ∧
      generate rule none source = (front ++ back, source) ∧
      ∀ value : FieldValue,
        generate rule (some (fields.insert expression.field value)) source =
          (front ++ expression.pick value.display ++ back, source) := by
  intro rule expression
  have read : Generator.parse content = .reference expression :=
    Generator.parse_reference notRandom notRepetition
  have resolved : ∀ known : Option FieldMap, generate rule known source =
      (front ++ ((Generator.reference expression).resolve known source).1.output ++ back,
        ((Generator.reference expression).resolve known source).2) := by
    intro known
    rw [← read]
    apply generate_group_between
    · exact Segment.isParenthesis_of_mem frontPlain.1 frontPlain.2
    · exact Segment.isParenthesis_of_mem backPlain.1 backPlain.2
    · exact nonempty
    · exact enclosed
  refine ⟨resolved (some fields), ?_, ?_⟩
  · rw [resolved none]
    simp [Generator.resolve]
  · intro value
    rw [resolved (some _), ← expression.extract_insert fields value]
    rfl

/-- The second word of a field whose name has brackets reads like a random group. It is text, and so
are the parentheses around it. -/
theorem generate_reference_verbatim :
    let front : Text := "No. ".toList
    let back : Text := ", p. 1".toList
    let content : Text := "a[b][w2]".toList
    let fields : FieldMap := .ofList [("a[b]".toList, .text " x\t(rn[3]) y".toList)]
    let rule := front ++ '(' :: content ++ ')' :: back
    (('(' ∉ front ∧ ')' ∉ front) ∧ ('(' ∉ back ∧ ')' ∉ back) ∧ content ≠ [] ∧ ')' ∉ content ∧
        ¬ content.IsRandomForm ∧ ¬ content.IsRepetitionForm) ∧
      generate rule (some fields) (.seeded 7) = ("No. (rn[3]), p. 1".toList, .seeded 7) ∧
      generate rule none (.seeded 7) = ("No. , p. 1".toList, .seeded 7) := by
  intro front back content fields rule
  refine ⟨by decide, ?_⟩
  obtain ⟨known, unknown, -⟩ := generate_reference front back content (by decide)
    (by decide) (by decide) (by decide) (by decide) (by decide) fields (.seeded 7)
  have picked : extract content fields = "(rn[3])".toList := by decide
  rw [picked] at known
  exact ⟨known, unknown⟩

end FormFill
