import FormFill.Proofs.SelectorRoundTrip

/-! # The grammar of expressions

An expression with a selector is a field name, and in brackets a kind and a specification. One text
can be cut in this way at several brackets; the cut with the longest field name counts, and a text
that cannot be cut at all is a plain field name. Cuts and the selectors that they denote are said
here without the scan that finds them, and reading gives exactly what this grammar says.
-/

namespace FormFill

namespace Text

/-- The parts between separators hold no separator. -/
theorem notMem_of_mem_splitOn {separator : Char} {text part : Text}
    (member : part ∈ text.splitOn separator) : separator ∉ part := by
  induction text generalizing part with
  | nil => simp_all
  | cons c rest ih =>
    rw [List.splitOn_cons_eq_if_modifyHead] at member
    split at member
    · rcases List.mem_cons.mp member with rfl | later
      · exact List.not_mem_nil
      · exact ih later
    · next other =>
      cases parts : rest.splitOn separator with
      | nil => exact absurd parts (List.splitOn_ne_nil _ _)
      | cons first more =>
        rw [parts, List.modifyHead_cons] at member
        rw [parts] at ih
        rcases List.mem_cons.mp member with rfl | later
        · have apart : separator ∉ first := ih List.mem_cons_self
          have different : separator ≠ c := fun same => other (by simp [same])
          simp [different, apart]
        · exact ih (List.mem_cons_of_mem _ later)

/-- A text that holds the separator falls apart at it into two parts at least. -/
theorem two_le_length_splitOn {separator : Char} {text : Text} (member : separator ∈ text) :
    2 ≤ (text.splitOn separator).length := by
  obtain ⟨front, back, rfl, apart⟩ := List.eq_append_cons_of_mem member
  have positive := List.length_pos_iff.mpr (List.splitOn_ne_nil separator back)
  rw [List.splitOn_append_cons_self_of_not_mem apart, List.length_cons]
  omega

end Text

namespace Selector

/-- Whether a selector picks a word or characters. -/
inductive Kind where
  | word
  | characters
deriving DecidableEq

/-- The letters of a kind, as they stand behind the opening bracket. -/
def Kind.letters : Kind → Text
  | .word => ['w']
  | .characters => ['c', 'h']

/-- The selector that a specification denotes. For characters it is a list of all pieces between
commas if there is a comma, otherwise a range of the first two pieces between dashes if there is a
dash, otherwise a single index. -/
inductive Denotes : Kind → Text → Selector → Prop
  | word (spec : Text) : Denotes .word spec (.word (Index.parse spec))
  | charList {pieces : List Text} (several : 2 ≤ pieces.length)
      (apart : ∀ piece ∈ pieces, ',' ∉ piece) :
      Denotes .characters ([','].intercalate pieces) (.charList (pieces.map Index.parse))
  | charRange {first second rest : Text} (noComma : ',' ∉ first ++ '-' :: second ++ rest)
      (firstWhole : '-' ∉ first) (secondWhole : '-' ∉ second)
      (ended : ∀ c ∈ rest.head?, c = '-') :
      Denotes .characters (first ++ '-' :: second ++ rest)
        (.charRange (Index.parse first) (Index.parse second))
  | charAt {spec : Text} (noComma : ',' ∉ spec) (noDash : '-' ∉ spec) :
      Denotes .characters spec (.charAt (Index.parse spec))

/-- The second piece ends at the next dash, or with the text. -/
private theorem splitOn_dash {second rest : Text} (whole : '-' ∉ second)
    (ended : ∀ c ∈ rest.head?, c = '-') :
    ∃ others, (second ++ rest).splitOn '-' = second :: others := by
  cases rest with
  | nil => exact ⟨[], by rw [List.append_nil, List.splitOn_eq_singleton whole]⟩
  | cons c rest =>
    obtain rfl : c = '-' := ended c rfl
    exact ⟨_, List.splitOn_append_cons_self_of_not_mem whole rest⟩

theorem Denotes.parseCharacters_eq {spec : Text} {selector : Selector}
    (denoted : Denotes .characters spec selector) : parseCharacters spec = selector := by
  cases denoted with
  | @charList pieces several apart =>
    have comma : ',' ∈ [','].intercalate pieces := separator_mem_intercalate several
    have parts : pieces ≠ [] := by
      rintro rfl
      contradiction
    rw [parseCharacters, if_pos comma, List.splitOn_intercalate ',' apart parts]
  | @charRange first second rest noComma firstWhole secondWhole ended =>
    obtain ⟨others, split⟩ := splitOn_dash secondWhole ended
    have pieces : (first ++ '-' :: second ++ rest).splitOn '-' = first :: second :: others := by
      rw [List.append_assoc, List.cons_append,
        List.splitOn_append_cons_self_of_not_mem firstWhole, split]
    rw [parseCharacters, if_neg noComma, if_pos (by simp), pieces]
    rfl
  | charAt noComma noDash => rw [parseCharacters, if_neg noComma, if_neg noDash]

/-- Every specification denotes a selector of characters. -/
theorem exists_denotes (spec : Text) : ∃ selector, Denotes .characters spec selector := by
  by_cases comma : ',' ∈ spec
  · have pieces : Denotes .characters ([','].intercalate (spec.splitOn ',')) _ :=
      .charList (Text.two_le_length_splitOn comma) fun _ => Text.notMem_of_mem_splitOn
    rw [List.intercalate_splitOn] at pieces
    exact ⟨_, pieces⟩
  by_cases dash : '-' ∈ spec
  · obtain ⟨first, back, rfl, firstWhole⟩ := List.eq_append_cons_of_mem dash
    by_cases more : '-' ∈ back
    · obtain ⟨second, rest, rfl, secondWhole⟩ := List.eq_append_cons_of_mem more
      rw [← List.cons_append, ← List.append_assoc] at comma ⊢
      exact ⟨_, .charRange comma firstWhole secondWhole (by simp)⟩
    · rw [← List.append_nil (first ++ '-' :: back)] at comma ⊢
      exact ⟨_, .charRange comma firstWhole more (by simp)⟩
  · exact ⟨_, .charAt comma dash⟩

theorem denotes_parseCharacters (spec : Text) :
    Denotes .characters spec (parseCharacters spec) := by
  obtain ⟨selector, denoted⟩ := exists_denotes spec
  rw [denoted.parseCharacters_eq]
  exact denoted

end Selector

open Selector (Kind Denotes)

namespace Expression

/-- What opens a selector is a bracket, the letters of a kind and a specification that denotes the
selector. -/
theorem opening?_eq_some_iff {text : Text} {selector : Selector} :
    opening? text = some selector ↔
      ∃ kind spec, spec ≠ [] ∧ text = '[' :: (Kind.letters kind ++ spec) ∧
        Denotes kind spec selector := by
  constructor
  · intro opened
    unfold opening? at opened
    split at opened
    · next c spec =>
      cases opened
      exact ⟨.word, c :: spec, List.cons_ne_nil _ _, rfl, .word _⟩
    · next c spec =>
      cases opened
      exact ⟨.characters, c :: spec, List.cons_ne_nil _ _, rfl,
        Selector.denotes_parseCharacters _⟩
    · contradiction
  · rintro ⟨kind, spec, nonempty, rfl, denoted⟩
    cases kind with
    | word =>
      cases denoted
      exact opening?_word nonempty
    | characters =>
      rw [← denoted.parseCharacters_eq]
      exact opening?_characters nonempty

/-- The opening that is found is one, and none stands behind it. -/
theorem exists_of_lastOpening? {text field : Text} {selector : Selector}
    (found : lastOpening? text = some (field, selector)) :
    ∃ back, text = field ++ back ∧ opening? back = some selector ∧
      lastOpening? back.tail = none := by
  induction text generalizing field with
  | nil => contradiction
  | cons c rest ih =>
    rw [lastOpening?] at found
    cases later : lastOpening? rest with
    | some pair =>
      rw [later] at found
      cases found
      obtain ⟨back, rfl, opened, last⟩ := ih later
      exact ⟨back, rfl, opened, last⟩
    | none =>
      rw [later] at found
      obtain ⟨_, opened, same⟩ := Option.map_eq_some_iff.mp found
      cases same
      exact ⟨c :: rest, rfl, opened, later⟩

/-- Before every opening of a text stands at most what stands before the one that is found. -/
theorem length_le_of_lastOpening? {text field front back : Text} {selector : Selector}
    (found : lastOpening? text = some (field, selector)) (whole : text = front ++ back)
    (opened : (opening? back).isSome) : front.length ≤ field.length := by
  obtain ⟨rear, cut, -, last⟩ := exists_of_lastOpening? found
  rcases List.append_eq_append_iff.mp (whole.symm.trans cut) with ⟨gap, rfl, -⟩ | ⟨gap, rfl, rfl⟩
  · simp
  · cases gap with
    | nil => simp
    | cons c gap =>
      have closed := lastOpening?_eq_none_iff.mp last gap back rfl
      rw [closed] at opened
      contradiction

/-- A text on one line is cut into a field name, a kind and a specification in brackets. -/
structure IsCut (text field : Text) (kind : Kind) (spec : Text) : Prop where
  named : field ≠ []
  filled : spec ≠ []
  line : '\n' ∉ text
  whole : text = field ++ '[' :: (kind.letters ++ spec) ++ [']']

/-- What a text means: the selector of its cut with the longest field name, or a plain field name
when it has no cut. -/
inductive Reads (text : Text) : Expression → Prop
  | selected {field spec : Text} {kind : Kind} {selector : Selector}
      (cut : IsCut text field kind spec)
      (longest : ∀ other otherKind otherSpec, IsCut text other otherKind otherSpec →
        other.length ≤ field.length)
      (denoted : Denotes kind spec selector) : Reads text ⟨field, some selector⟩
  | plain (uncut : ∀ field kind spec, ¬ IsCut text field kind spec) : Reads text ⟨text, none⟩

theorem isSelectorForm_iff {text : Text} :
    text.IsSelectorForm ↔ ∃ field kind spec, IsCut text field kind spec := by
  constructor
  · rintro ⟨field, letters, spec, named, rfl | rfl, filled, line, whole⟩
    · exact ⟨field, .word, spec, named, filled, line, whole⟩
    · exact ⟨field, .characters, spec, named, filled, line, whole⟩
  · rintro ⟨field, kind, spec, named, filled, line, whole⟩
    cases kind with
    | word => exact ⟨field, _, spec, named, .inl rfl, filled, line, whole⟩
    | characters => exact ⟨field, _, spec, named, .inr rfl, filled, line, whole⟩

/-- Every specification denotes a selector under either kind, so a cut opens one. -/
theorem isSome_opening? (kind : Kind) {spec : Text} (filled : spec ≠ []) :
    (opening? ('[' :: (kind.letters ++ spec))).isSome := by
  cases kind with
  | word => exact Option.isSome_iff_exists.mpr ⟨_, opening?_word filled⟩
  | characters => exact Option.isSome_iff_exists.mpr ⟨_, opening?_characters filled⟩

/-- The split of a text before its closing bracket is its cut with the longest field name. -/
theorem reads_of_split? {body field : Text} {selector : Selector} (line : '\n' ∉ body ++ [']'])
    (found : split? body = some (field, selector)) :
    Reads (body ++ [']']) ⟨field, some selector⟩ := by
  cases body with
  | nil => contradiction
  | cons c rest =>
    obtain ⟨⟨name, _⟩, last, same⟩ := Option.map_eq_some_iff.mp found
    cases same
    obtain ⟨back, rfl, opened, -⟩ := exists_of_lastOpening? last
    obtain ⟨kind, spec, filled, rfl, denoted⟩ := opening?_eq_some_iff.mp opened
    refine .selected ⟨List.cons_ne_nil _ _, filled, line, by simp⟩ ?_ denoted
    intro other otherKind otherSpec cut
    -- The field of another cut begins with the same character, and its bracket opens behind that.
    have shape := List.append_cancel_right cut.whole
    cases other with
    | nil => exact absurd rfl cut.named
    | cons d other =>
      have inside := (List.cons.inj shape).2
      have opens := isSome_opening? otherKind cut.filled
      have shorter := length_le_of_lastOpening? last inside opens
      simpa using shorter

/-- A text means what it is read as. -/
theorem reads_parse (text : Text) : Reads text (parse text) := by
  by_cases form : text.IsSelectorForm
  · obtain ⟨field, kind, spec, cut⟩ := isSelectorForm_iff.mp form
    obtain ⟨body, rfl⟩ : ∃ body, text = body ++ [']'] := ⟨_, cut.whole⟩
    have scanned : '\n' ∉ body ++ [']'] ∧ (body ++ [']']).getLast? = some ']' :=
      ⟨cut.line, List.getLast?_concat⟩
    cases found : split? body with
    | none =>
      have plain : (parse (body ++ [']'])).selector = none := by
        rw [parse, if_pos scanned, List.dropLast_concat, found]
      exact absurd form (selector_parse_eq_none_iff.mp plain)
    | some pair =>
      rw [parse, if_pos scanned, List.dropLast_concat, found]
      exact reads_of_split? cut.line found
  · rw [parse_of_not_selectorForm form]
    apply Reads.plain
    intro field kind spec cut
    exact form (isSelectorForm_iff.mpr ⟨field, kind, spec, cut⟩)

/-- A text means one expression only. -/
theorem Reads.unique {text : Text} {left right : Expression} (leftReads : Reads text left)
    (rightReads : Reads text right) : left = right := by
  cases leftReads with
  | plain uncut =>
    cases rightReads with
    | plain => rfl
    | selected cut => exact absurd cut (uncut _ _ _)
  | @selected field spec kind selector cut longest denoted =>
    cases rightReads with
    | plain uncut => exact absurd cut (uncut _ _ _)
    | @selected other otherSpec otherKind otherSelector otherCut otherLongest otherDenoted =>
      have length : field.length = other.length :=
        Nat.le_antisymm (otherLongest _ _ _ cut) (longest _ _ _ otherCut)
      have same := List.append_cancel_right (cut.whole.symm.trans otherCut.whole)
      obtain ⟨rfl, openings⟩ := List.append_inj same length
      have opened := opening?_eq_some_iff.mpr ⟨kind, spec, cut.filled, rfl, denoted⟩
      have otherOpened :=
        opening?_eq_some_iff.mpr ⟨otherKind, otherSpec, otherCut.filled, rfl, otherDenoted⟩
      rw [openings, otherOpened] at opened
      obtain rfl := Option.some.inj opened
      rfl

/-- Reading a text gives exactly what the grammar says: the selector of the cut with the longest
field name, or a plain field name when there is no cut. -/
theorem parse_eq_iff_reads (text : Text) (expression : Expression) :
    parse text = expression ↔ Reads text expression := by
  constructor
  · rintro rfl
    exact reads_parse text
  · exact (reads_parse text).unique

/-- Of three brackets the last has no specification behind its kind, so the second one opens. -/
example : parse "a[b][w1[ch]".toList = ⟨"a[b]".toList, some (.word (some 1))⟩ := by decide

end Expression

end FormFill
