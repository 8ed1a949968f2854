import FormFill.Extraction
import FormFill.Proofs.ExpressionGrammar

/-! # Canonical expressions

The expressions that texts can be read as are plain names that have no selector form, and names on
one line with a selector whose indices the grammar can produce. The canonical text of such an
expression is read as the same expression, so every text can be exchanged for the canonical text of
its meaning.
-/

namespace FormFill

namespace Index

theorem inRange_parse (text : Text) : (parse text).InRange :=
  fun _ found => parse_bounds found

private theorem unsigned_ofDigits (text : Text) : Unsigned (ofDigits 1 text) := by
  intro i found
  obtain ⟨-, rfl⟩ := ofDigits_eq_some_iff.mp found
  unfold clamp least greatest
  omega

/-- Without a dash no index is negative: what follows the digits does not count. -/
theorem unsigned_parse {text : Text} (noDash : '-' ∉ text) : (parse text).Unsigned := by
  unfold parse
  split
  · next rest front =>
    have inside : '-' ∈ text.dropWhile Text.isBlank := by simp [front]
    exact absurd ((List.dropWhile_suffix _).subset inside) noDash
  · exact unsigned_ofDigits _
  · exact unsigned_ofDigits _

end Index

namespace Selector

/-- Pieces of a range and single indices hold no dash, and a comma leaves two pieces at least. -/
theorem Denotes.writable {kind : Kind} {spec : Text} {selector : Selector}
    (denoted : Denotes kind spec selector) : selector.Writable := by
  cases denoted with
  | word => exact Index.inRange_parse spec
  | @charList pieces several apart =>
    constructor
    · simpa using several
    · intro index member
      obtain ⟨piece, -, rfl⟩ := List.mem_map.mp member
      exact Index.inRange_parse piece
  | charRange noComma firstWhole secondWhole ended =>
    constructor
    · exact ⟨Index.inRange_parse _, Index.unsigned_parse firstWhole⟩
    · exact ⟨Index.inRange_parse _, Index.unsigned_parse secondWhole⟩
  | charAt noComma noDash => exact ⟨Index.inRange_parse _, Index.unsigned_parse noDash⟩

end Selector

namespace Expression

/-- A nonempty name on one line with a selector of the grammar, or a plain name that no selector can
be read from. -/
def Readable : Expression → Prop
  | ⟨field, some selector⟩ => (field ≠ [] ∧ '\n' ∉ field) ∧ selector.Writable
  | ⟨field, none⟩ => ¬ field.IsSelectorForm

instance : DecidablePred Readable
  | ⟨field, some selector⟩ =>
    inferInstanceAs (Decidable ((field ≠ [] ∧ '\n' ∉ field) ∧ selector.Writable))
  | ⟨field, none⟩ => inferInstanceAs (Decidable (¬ field.IsSelectorForm))

theorem Reads.readable {text : Text} {expression : Expression} (reads : Reads text expression) :
    expression.Readable := by
  cases reads with
  | selected cut longest denoted =>
    refine ⟨⟨cut.named, ?_⟩, denoted.writable⟩
    intro inside
    apply cut.line
    rw [cut.whole]
    simp [inside]
  | plain uncut =>
    intro form
    obtain ⟨field, kind, spec, cut⟩ := isSelectorForm_iff.mp form
    exact uncut field kind spec cut

theorem parse_render {expression : Expression} (readable : expression.Readable) :
    parse expression.render = expression := by
  rcases expression with ⟨field, _ | selector⟩
  · exact parse_of_not_selectorForm readable
  · obtain ⟨⟨named, line⟩, writable⟩ := readable
    exact parse_selected named line writable

/-- The readable expressions are all that texts can mean. -/
theorem exists_parse_eq_iff {expression : Expression} :
    (∃ text, parse text = expression) ↔ expression.Readable := by
  constructor
  · rintro ⟨text, rfl⟩
    exact (reads_parse text).readable
  · intro readable
    exact ⟨expression.render, parse_render readable⟩

/-- What a text is read as is a readable expression. Its canonical text is read as the same
expression, and so extracts the same text from any fields. -/
theorem parse_canonical (text : Text) :
    let expression := parse text
    expression.Readable ∧ parse expression.render = expression ∧
      ∀ fields : FieldMap,
        FormFill.extract expression.render fields = FormFill.extract text fields := by
  intro expression
  have readable : expression.Readable := exists_parse_eq_iff.mp ⟨text, rfl⟩
  have again : parse expression.render = expression := parse_render readable
  refine ⟨readable, again, ?_⟩
  intro fields
  rw [FormFill.extract, again]
  rfl

/-- Of a range only two pieces count, a sign is kept where it belongs to a list, and an index beyond
all texts is the greatest one. -/
example :
    ["a[ch 2-+4-6]", "a[ch-1,x, +07]", "a[w99999999999999999999]"].map (fun text =>
        String.ofList (parse text.toList).render) =
      ["a[ch2-4]", "a[ch-1,x,7]", "a[w9223372036854775807]"] := by decide

end Expression

end FormFill
