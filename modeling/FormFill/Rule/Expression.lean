import FormFill.Rule.Selector

/-! # Dependency expressions

An expression is a field name, optionally followed by a selector in brackets: `name`, `name[w2]`,
`name[ch1,3]` or `name[ch1-4]`. A text of any other form is a plain field name. Where several
brackets could open the selector, the field name is the longest possible.
-/

namespace FormFill

/-- A reference to a field, narrowed by a selector if there is one. -/
structure Expression where
  field : Text
  selector : Option Selector
deriving DecidableEq

namespace Expression

/-- The selector that an opening bracket introduces, up to but without the closing bracket. -/
def opening? : Text → Option Selector
  | '[' :: 'w' :: c :: spec => some (.word (Index.parse (c :: spec)))
  | '[' :: 'c' :: 'h' :: c :: spec => some (Selector.parseCharacters (c :: spec))
  | _ => none

/-- The last place where a selector can open: the text before it, and the selector. -/
def lastOpening? : Text → Option (Text × Selector)
  | [] => none
  | c :: rest =>
    match lastOpening? rest with
    | some (field, selector) => some (c :: field, selector)
    | none => (opening? (c :: rest)).map fun selector => ([], selector)

/-- The longest nonempty field and its selector, for a text without the closing bracket. -/
def split? : Text → Option (Text × Selector)
  | [] => none
  | c :: rest => (lastOpening? rest).map fun (field, selector) => (c :: field, selector)

/-- Read a text as an expression. -/
def parse (text : Text) : Expression :=
  if '\n' ∉ text ∧ text.getLast? = some ']' then
    match split? text.dropLast with
    | some (field, selector) => ⟨field, some selector⟩
    | none => ⟨text, none⟩
  else ⟨text, none⟩

/-- The canonical text of an expression. -/
def render (expression : Expression) : Text :=
  match expression.selector with
  | some selector => expression.field ++ '[' :: selector.render ++ [']']
  | none => expression.field

end Expression

end FormFill
