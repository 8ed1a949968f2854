import FormFill.Proofs.RuleForms

/-! # Selectors written and read back

Indices are written with digits, a dash and `x`, and selectors add only a kind and commas. None of
these characters opens a bracket, so the selector stands after the last bracket of an expression and
is read back, whatever brackets the field name has.
-/

namespace FormFill

namespace Index

/-- Indices of the signed 64-bit range; a missing index is one of them. -/
def InRange (index : Index) : Prop := ∀ i ∈ index, least ≤ i ∧ i ≤ greatest

/-- Indices that are missing or not negative. -/
def Unsigned (index : Index) : Prop := ∀ i ∈ index, 0 ≤ i

instance (index : Index) : Decidable index.InRange :=
  inferInstanceAs (Decidable (∀ i ∈ index, least ≤ i ∧ i ≤ greatest))

instance (index : Index) : Decidable index.Unsigned :=
  inferInstanceAs (Decidable (∀ i ∈ index, 0 ≤ i))

theorem render_ne_nil (index : Index) : index.render ≠ [] := by
  cases index with
  | none => exact List.cons_ne_nil _ _
  | some i =>
    cases i with
    | ofNat n => exact Text.ofNat_ne_nil n
    | negSucc n => exact List.cons_ne_nil _ _

theorem notMem_render {c : Char} (notDigit : Text.isDigit c = false) (notMissing : c ≠ 'x')
    (notDash : c ≠ '-') (index : Index) : c ∉ index.render := by
  intro member
  have noDigit : ∀ n, c ∉ Text.ofNat n := fun n inside => by
    rw [Text.isDigit_of_mem_ofNat inside] at notDigit
    contradiction
  cases index with
  | none => exact notMissing (List.mem_singleton.mp member)
  | some i =>
    cases i with
    | ofNat n => exact noDigit n member
    | negSucc n =>
      rcases List.mem_cons.mp member with dash | digit
      · exact notDash dash
      · exact noDigit (n + 1) digit

/-- Only a negative index is written with a dash. -/
theorem dash_notMem_render {index : Index} (unsigned : index.Unsigned) : '-' ∉ index.render := by
  cases index with
  | none => decide
  | some i =>
    cases i with
    | ofNat n => exact fun member => absurd (Text.isDigit_of_mem_ofNat member) (by decide)
    | negSucc n =>
      have positive : 0 ≤ Int.negSucc n := unsigned _ rfl
      omega

end Index

namespace Selector

/-- The selectors that a text can be read as: what follows `ch` is a list if it has a comma and a
range if it has a dash, so lists have two indices at least, and other indices have no sign. -/
def Writable : Selector → Prop
  | .word index => index.InRange
  | .charAt index => index.InRange ∧ index.Unsigned
  | .charList indices => 2 ≤ indices.length ∧ ∀ index ∈ indices, index.InRange
  | .charRange first last => (first.InRange ∧ first.Unsigned) ∧ last.InRange ∧ last.Unsigned

instance : DecidablePred Writable
  | .word index => inferInstanceAs (Decidable index.InRange)
  | .charAt index => inferInstanceAs (Decidable (index.InRange ∧ index.Unsigned))
  | .charList indices =>
    inferInstanceAs (Decidable (2 ≤ indices.length ∧ ∀ index ∈ indices, index.InRange))
  | .charRange first last =>
    inferInstanceAs (Decidable ((first.InRange ∧ first.Unsigned) ∧ last.InRange ∧ last.Unsigned))

theorem mem_intercalate {separator c : Char} {parts : List Text}
    (member : c ∈ [separator].intercalate parts) : c = separator ∨ ∃ part ∈ parts, c ∈ part := by
  induction parts with
  | nil => contradiction
  | cons part parts ih =>
    cases parts with
    | nil => exact .inr ⟨part, List.mem_cons_self, by simpa using member⟩
    | cons next parts =>
      rw [List.intercalate_cons_cons] at member
      rcases List.mem_append.mp member with front | later
      · rcases List.mem_append.mp front with inside | between
        · exact .inr ⟨part, List.mem_cons_self, inside⟩
        · exact .inl (List.mem_singleton.mp between)
      · exact (ih later).imp_right fun ⟨other, present, inside⟩ =>
          ⟨other, List.mem_cons_of_mem _ present, inside⟩

/-- Selectors are written with digits and a few other characters only. -/
theorem notMem_render {c : Char} (notDigit : Text.isDigit c = false)
    (strange : c ∉ ['w', 'c', 'h', 'x', '-', ',']) (selector : Selector) :
    c ∉ selector.render := by
  simp only [List.mem_cons, List.not_mem_nil, or_false, not_or] at strange
  obtain ⟨notWord, notC, notH, notMissing, notDash, notComma⟩ := strange
  have outside : ∀ index : Index, c ∉ index.render :=
    Index.notMem_render notDigit notMissing notDash
  cases selector with
  | word index => simp [render, notWord, outside]
  | charAt index => simp [render, notC, notH, outside]
  | charRange first last => simp [render, notC, notH, notDash, outside]
  | charList indices =>
    have separate : c ∉ [','].intercalate (indices.map Index.render) := by
      intro member
      rcases mem_intercalate member with comma | ⟨part, present, inside⟩
      · exact notComma comma
      · obtain ⟨index, -, rfl⟩ := List.mem_map.mp present
        exact outside index inside
    simp [render, notC, notH, separate]

/-- Two parts or more have a separator between them. -/
theorem separator_mem_intercalate {separator : Char} {parts : List Text}
    (several : 2 ≤ parts.length) : separator ∈ [separator].intercalate parts := by
  rcases parts with _ | ⟨first, _ | ⟨second, rest⟩⟩
  · contradiction
  · simp at several
  · simp [List.intercalate_cons_cons]

theorem parseCharacters_charAt {index : Index} (range : index.InRange)
    (unsigned : index.Unsigned) : parseCharacters index.render = .charAt index := by
  have noComma : ',' ∉ index.render :=
    Index.notMem_render (by decide) (by decide) (by decide) index
  rw [parseCharacters, if_neg noComma, if_neg (Index.dash_notMem_render unsigned),
    Index.parse_render range]

theorem parseCharacters_charRange {first last : Index} (firstRange : first.InRange)
    (lastRange : last.InRange) (firstUnsigned : first.Unsigned) (lastUnsigned : last.Unsigned) :
    parseCharacters (first.render ++ '-' :: last.render) = .charRange first last := by
  have noComma : ∀ index : Index, ',' ∉ index.render :=
    Index.notMem_render (by decide) (by decide) (by decide)
  have split : (first.render ++ '-' :: last.render).splitOn '-' = [first.render, last.render] := by
    rw [List.splitOn_append_cons_self_of_not_mem (Index.dash_notMem_render firstUnsigned),
      List.splitOn_eq_singleton (Index.dash_notMem_render lastUnsigned)]
  rw [parseCharacters, if_neg (by simp [noComma]), if_pos (by simp), split]
  simp [Index.parse_render firstRange, Index.parse_render lastRange]

theorem parseCharacters_charList {indices : List Index} (several : 2 ≤ indices.length)
    (range : ∀ index ∈ indices, index.InRange) :
    parseCharacters ([','].intercalate (indices.map Index.render)) = .charList indices := by
  have noComma : ∀ part ∈ indices.map Index.render, ',' ∉ part := by
    intro part present
    obtain ⟨index, -, rfl⟩ := List.mem_map.mp present
    exact Index.notMem_render (by decide) (by decide) (by decide) index
  have parts : indices.map Index.render ≠ [] := by
    rintro none
    simp [List.map_eq_nil_iff.mp none] at several
  have back : (indices.map Index.render).map Index.parse = indices := by
    calc (indices.map Index.render).map Index.parse
        = indices.map id := by
          rw [List.map_map]
          exact List.map_congr_left fun index present => Index.parse_render (range index present)
      _ = indices := List.map_id indices
  have comma : ',' ∈ [','].intercalate (indices.map Index.render) :=
    separator_mem_intercalate (by simpa using several)
  rw [parseCharacters, if_pos comma, List.splitOn_intercalate ',' noComma parts, back]

end Selector

namespace Expression

theorem opening?_word {spec : Text} (nonempty : spec ≠ []) :
    opening? ('[' :: 'w' :: spec) = some (.word (Index.parse spec)) := by
  cases spec with
  | nil => contradiction
  | cons c spec => rfl

theorem opening?_characters {spec : Text} (nonempty : spec ≠ []) :
    opening? ('[' :: 'c' :: 'h' :: spec) = some (Selector.parseCharacters spec) := by
  cases spec with
  | nil => contradiction
  | cons c spec => rfl

/-- A selector is read back after its opening bracket. -/
theorem opening?_render {selector : Selector} (writable : selector.Writable) :
    opening? ('[' :: selector.render) = some selector := by
  cases selector with
  | word index =>
    rw [Selector.render, opening?_word index.render_ne_nil, Index.parse_render writable]
  | charAt index =>
    rw [Selector.render, opening?_characters index.render_ne_nil,
      Selector.parseCharacters_charAt writable.1 writable.2]
  | charRange first last =>
    obtain ⟨⟨firstRange, firstUnsigned⟩, lastRange, lastUnsigned⟩ := writable
    rw [Selector.render, opening?_characters (by simp),
      Selector.parseCharacters_charRange firstRange lastRange firstUnsigned lastUnsigned]
  | charList indices =>
    obtain ⟨several, range⟩ := writable
    have nonempty : [','].intercalate (indices.map Index.render) ≠ [] :=
      List.ne_nil_of_mem (Selector.separator_mem_intercalate (by simpa using several))
    rw [Selector.render, opening?_characters nonempty,
      Selector.parseCharacters_charList several range]

/-- Without a bracket nothing opens. -/
theorem lastOpening?_of_notMem {text : Text} (unbracketed : '[' ∉ text) :
    lastOpening? text = none := by
  refine lastOpening?_eq_none_iff.mpr fun front back whole => ?_
  cases opened : opening? back with
  | none => rfl
  | some selector =>
    obtain ⟨kind, spec, -, -, rfl⟩ :=
      opening?_isSome_iff.mp (Option.isSome_iff_exists.mpr ⟨selector, opened⟩)
    exact absurd (by simp [whole]) unbracketed

/-- A field name on one line and its selector are read back. -/
theorem parse_selected {field : Text} {selector : Selector} (nonempty : field ≠ [])
    (line : '\n' ∉ field) (writable : selector.Writable) :
    parse (field ++ '[' :: selector.render ++ [']']) = ⟨field, some selector⟩ := by
  have selectorLine : '\n' ∉ selector.render :=
    Selector.notMem_render (by decide) (by decide) selector
  have unbracketed : '[' ∉ selector.render :=
    Selector.notMem_render (by decide) (by decide) selector
  have bracketed : '\n' ∉ field ++ '[' :: selector.render ++ [']'] ∧
      (field ++ '[' :: selector.render ++ [']']).getLast? = some ']' :=
    ⟨by simp [line, selectorLine], List.getLast?_concat⟩
  have opened : lastOpening? ('[' :: selector.render) = some ([], selector) := by
    simp [lastOpening?, lastOpening?_of_notMem unbracketed, opening?_render writable]
  have split : split? (field ++ '[' :: selector.render) = some (field, selector) := by
    cases field with
    | nil => contradiction
    | cons c field => simp [split?, lastOpening?_append field opened]
  rw [parse, if_pos bracketed, List.dropLast_concat, split]

end Expression

end FormFill
