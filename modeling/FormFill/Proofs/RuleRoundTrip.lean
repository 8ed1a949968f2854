import FormFill.Proofs.SelectorRoundTrip
import FormFill.Rule.Segment
import Mathlib.Data.List.Chain

/-! # Rules written and read back

A rule written from literals and generators is read back as the same literals and generators. Names
in front of a bracket must not look like a random form, and a plain field name must have none of the
three forms; sources and names may otherwise hold brackets of their own.
-/

namespace FormFill

namespace Text

/-- A name that can stand in front of a bracket: on one line, inside parentheses, and not taken for
the opening of a random form. -/
structure IsName (name : Text) : Prop where
  nonempty : name ≠ []
  line : '\n' ∉ name
  enclosed : ')' ∉ name
  notDigits : name ≠ ['r', 'n'] ∧ ¬ ['r', 'n', '['] <+: name
  notLetters : name ≠ ['r', 'c'] ∧ ¬ ['r', 'c', '['] <+: name

instance (name : Text) : Decidable name.IsName :=
  decidable_of_iff
    (name ≠ [] ∧ '\n' ∉ name ∧ ')' ∉ name ∧
      (name ≠ ['r', 'n'] ∧ ¬ ['r', 'n', '['] <+: name) ∧
      name ≠ ['r', 'c'] ∧ ¬ ['r', 'c', '['] <+: name)
    ⟨fun ⟨nonempty, line, enclosed, digits, letters⟩ =>
        ⟨nonempty, line, enclosed, digits, letters⟩,
      fun named => ⟨named.nonempty, named.line, named.enclosed, named.notDigits,
        named.notLetters⟩⟩

/-- What is bracketed after a name is not of random form. -/
theorem IsName.not_isRandomForm {name : Text} (named : name.IsName) (bracketed : Text) :
    ¬ (name ++ '[' :: bracketed ++ [']']).IsRandomForm := by
  rintro ⟨kind, inside, kinds, same⟩
  have front : name ++ '[' :: bracketed = 'r' :: kind :: '[' :: inside :=
    List.append_cancel_right same
  have notBracket : '[' ≠ kind := by rcases kinds with rfl | rfl <;> decide
  have other : name ≠ ['r', kind] ∧ ¬ ['r', kind, '['] <+: name := by
    rcases kinds with rfl | rfl
    · exact named.notDigits
    · exact named.notLetters
  -- The bracket after a short name would be a character of the opening; a longer name would hold it.
  rcases name with _ | ⟨first, _ | ⟨second, _ | ⟨third, more⟩⟩⟩
  · exact named.nonempty rfl
  · injection front with _ front
    injection front with bracket _
    exact notBracket bracket
  · injection front with first front
    injection front with second _
    exact other.1 (by rw [first, second])
  · injection front with first front
    injection front with second front
    injection front with third _
    exact other.2 ⟨more, by rw [first, second, third]; rfl⟩

end Text

namespace Selector

/-- The kind of a selector keeps it apart from a digit run. -/
theorem exists_notDigit (selector : Selector) :
    ∃ c ∈ selector.render, Text.isDigit c = false := by
  cases selector with
  | word index => exact ⟨'w', List.mem_cons_self, by decide⟩
  | charAt index => exact ⟨'c', List.mem_cons_self, by decide⟩
  | charRange first last => exact ⟨'c', List.mem_cons_self, by decide⟩
  | charList indices => exact ⟨'c', List.mem_cons_self, by decide⟩

theorem not_isRepetitionForm (field : Text) (selector : Selector) :
    ¬ (field ++ '[' :: selector.render ++ [']']).IsRepetitionForm := by
  rintro ⟨unit, run, -, -, -, digits, same⟩
  have noBracket : '[' ∉ run := fun member => absurd (digits '[' member) (by decide)
  have unbracketed : '[' ∉ selector.render := notMem_render (by decide) (by decide) selector
  obtain ⟨-, written⟩ :=
    Text.last_occurrence_unique unbracketed noBracket (List.append_cancel_right same)
  obtain ⟨c, member, notDigit⟩ := selector.exists_notDigit
  rw [digits c (written ▸ member)] at notDigit
  contradiction

end Selector

namespace Expression

/-- The expressions that the contents of a group can denote: a name with a selector, or a plain name
of none of the three forms. -/
def Writable : Expression → Prop
  | ⟨field, some selector⟩ => field.IsName ∧ selector.Writable
  | ⟨field, none⟩ => field ≠ [] ∧ ')' ∉ field ∧
      ¬ field.IsRandomForm ∧ ¬ field.IsRepetitionForm ∧ ¬ field.IsSelectorForm

instance : DecidablePred Writable
  | ⟨field, some selector⟩ => inferInstanceAs (Decidable (field.IsName ∧ selector.Writable))
  | ⟨field, none⟩ =>
    inferInstanceAs (Decidable (field ≠ [] ∧ ')' ∉ field ∧
      ¬ field.IsRandomForm ∧ ¬ field.IsRepetitionForm ∧ ¬ field.IsSelectorForm))

end Expression

namespace Generator

/-- The generators that the contents of a group can denote. -/
def Writable : Generator → Prop
  | .randomDigits count => count < Text.countLimit
  | .randomLetters count => count < Text.countLimit
  | .duplicate repetition => repetition.unit.IsName ∧ repetition.count < Text.countLimit
  | .reference expression => expression.Writable

instance : DecidablePred Writable
  | .randomDigits count => inferInstanceAs (Decidable (count < Text.countLimit))
  | .randomLetters count => inferInstanceAs (Decidable (count < Text.countLimit))
  | .duplicate repetition =>
    inferInstanceAs (Decidable (repetition.unit.IsName ∧ repetition.count < Text.countLimit))
  | .reference expression => inferInstanceAs (Decidable expression.Writable)

private theorem firstCount_bracketed {kind : Char} (plain : Text.isDigit kind = false) {count : Nat}
    (small : count < Text.countLimit) :
    Text.firstCount ('r' :: kind :: '[' :: Text.ofNat count ++ [']']) = count := by
  have free : ∀ c ∈ ['r', kind, '['], Text.isDigit c = false := by
    intro c member
    simp only [List.mem_cons, List.not_mem_nil, or_false] at member
    rcases member with rfl | rfl | rfl
    · decide
    · exact plain
    · decide
  have stop : ∀ c ∈ [']'].head?, Text.isDigit c = false := by simp; decide
  exact (Text.firstCount_append (Text.ofNat count ++ [']']) free).trans
    (Text.firstCount_ofNat small stop)

/-- A writable generator is read back from its contents. -/
theorem parse_render {generator : Generator} (writable : generator.Writable) :
    parse generator.render = generator := by
  cases generator with
  | randomDigits count =>
    have read := random?_digits (Text.ofNat count)
    rw [firstCount_bracketed (by decide) writable] at read
    rw [render, parse, read]
  | randomLetters count =>
    have read := random?_letters (Text.ofNat count)
    rw [firstCount_bracketed (by decide) writable] at read
    rw [render, parse, read]
  | duplicate repetition =>
    obtain ⟨named, small⟩ := writable
    exact parse_repetition (named.not_isRandomForm _)
      (Repetition.parse?_render named.nonempty named.line small)
  | reference expression =>
    rcases expression with ⟨field, _ | selector⟩
    · obtain ⟨-, -, notRandom, notRepetition, plain⟩ := writable
      exact (parse_reference notRandom notRepetition).trans
        (congrArg reference (Expression.parse_of_not_selectorForm plain))
    · obtain ⟨named, written⟩ := writable
      exact (parse_reference (named.not_isRandomForm _) (selector.not_isRepetitionForm field)).trans
        (congrArg reference (Expression.parse_selected named.nonempty named.line written))

theorem render_ne_nil {generator : Generator} (writable : generator.Writable) :
    generator.render ≠ [] := by
  cases generator with
  | randomDigits count => simp [render]
  | randomLetters count => simp [render]
  | duplicate repetition => simp [render, Repetition.render]
  | reference expression =>
    rcases expression with ⟨field, _ | selector⟩
    · exact writable.1
    · simp [render, Expression.render]

/-- The contents of a group do not close it. -/
theorem closing_notMem_render {generator : Generator} (writable : generator.Writable) :
    ')' ∉ generator.render := by
  have number : ∀ n, ')' ∉ Text.ofNat n := fun n member =>
    absurd (Text.isDigit_of_mem_ofNat member) (by decide)
  cases generator with
  | randomDigits count => simp [render, number]
  | randomLetters count => simp [render, number]
  | duplicate repetition => simp [render, Repetition.render, writable.1.enclosed, number]
  | reference expression =>
    rcases expression with ⟨field, _ | selector⟩
    · exact writable.2.1
    · have selected : ')' ∉ selector.render :=
        Selector.notMem_render (by decide) (by decide) selector
      simp [render, Expression.render, writable.1.enclosed, selected]

end Generator

/-- A part of a rule as its author thinks of it. -/
inductive RuleItem where
  | literal (text : Text)
  | generated (generator : Generator)
deriving DecidableEq

namespace RuleItem

/-- The item as it is written in a rule. -/
def render : RuleItem → Text
  | .literal text => text
  | .generated generator => '(' :: generator.render ++ [')']

/-- The item that a segment denotes. -/
def ofSegment : Segment → RuleItem
  | .literal text => .literal text
  | .group content => .generated (Generator.parse content)

/-- The segment that an item is written as. -/
def segment : RuleItem → Segment
  | .literal text => .literal text
  | .generated generator => .group generator.render

def isLiteral : RuleItem → Bool
  | .literal _ => true
  | .generated _ => false

/-- Literals have characters but no parentheses, and generators are writable. -/
def Writable : RuleItem → Prop
  | .literal text => text ≠ [] ∧ '(' ∉ text ∧ ')' ∉ text
  | .generated generator => generator.Writable

instance : DecidablePred Writable
  | .literal text => inferInstanceAs (Decidable (text ≠ [] ∧ '(' ∉ text ∧ ')' ∉ text))
  | .generated generator => inferInstanceAs (Decidable generator.Writable)

theorem ofSegment_segment {item : RuleItem} (writable : item.Writable) :
    ofSegment item.segment = item := by
  cases item with
  | literal text => rfl
  | generated generator => exact congrArg RuleItem.generated (Generator.parse_render writable)

/-- Items are cut where they were joined, unless two literals touch. -/
theorem ofRule_render {items : List RuleItem} (writable : ∀ item ∈ items, item.Writable)
    (apart : items.IsChain fun item next => ¬ (item.isLiteral ∧ next.isLiteral)) :
    Segment.ofRule (items.flatMap render) = items.map segment := by
  induction items with
  | nil => rfl
  | cons item items ih =>
    obtain ⟨notBoth, apart⟩ := List.isChain_cons.mp apart
    have later := ih (fun other member => writable other (List.mem_cons_of_mem _ member)) apart
    have here := writable item List.mem_cons_self
    rw [List.flatMap_cons, List.map_cons, ← later]
    cases item with
    | literal text =>
      refine Segment.ofRule_run here.1 (Segment.isParenthesis_of_mem here.2.1 here.2.2) ?_
      cases items with
      | nil => simp
      | cons next items =>
        cases next with
        | literal more => exact absurd ⟨rfl, rfl⟩ (notBoth _ rfl)
        | generated generator => simp [render, Segment.isParenthesis]
    | generated generator =>
      have group := Segment.ofRule_group (items.flatMap render)
        (Generator.render_ne_nil here) (Generator.closing_notMem_render here)
      simpa [render, segment] using group

/-- A rule that is written from writable items, no two literals of which touch, is read back as
these items. -/
theorem map_ofSegment_ofRule {items : List RuleItem} (writable : ∀ item ∈ items, item.Writable)
    (apart : items.IsChain fun item next => ¬ (item.isLiteral ∧ next.isLiteral)) :
    (Segment.ofRule (items.flatMap render)).map ofSegment = items := by
  rw [ofRule_render writable apart, List.map_map]
  calc items.map (ofSegment ∘ segment)
      = items.map id := List.map_congr_left fun item member => ofSegment_segment (writable item member)
    _ = items := List.map_id items

/-- The largest count, brackets inside a source and inside names, and names that merely look
special. -/
theorem map_ofSegment_ofRule_mixed :
    let items : List RuleItem :=
      [.literal "FL-".toList, .generated (.randomDigits 18446744073709551615),
        .generated (.duplicate ⟨"a[3".toList, 2⟩), .literal " ".toList,
        .generated (.reference ⟨"x[w1]".toList, some (.word (some (-3)))⟩),
        .generated (.reference ⟨"(rn".toList, some (.charList [none, some 2])⟩),
        .generated (.reference ⟨"x".toList, some (.charRange (some 2) none)⟩),
        .generated (.reference ⟨"x[y]".toList, none⟩)]
    (∀ item ∈ items, item.Writable) ∧
      (items.IsChain fun item next => ¬ (item.isLiteral ∧ next.isLiteral)) ∧
      (Segment.ofRule (items.flatMap render)).map ofSegment = items :=
  ⟨by decide, by decide, map_ofSegment_ofRule (by decide) (by decide)⟩

end RuleItem

end FormFill
