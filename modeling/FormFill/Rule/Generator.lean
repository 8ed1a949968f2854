import FormFill.Rule.Expression
import FormFill.Rule.Repetition

/-! # Generators

The contents of a parenthesised group say how it is generated: `rn[4]` asks for random digits,
`rc[4]` for random letters, `unit[4]` repeats a field or the unit itself, and anything else is a
dependency expression. The random forms are tried first, so `rn[4]` never repeats the text `rn`.
-/

namespace FormFill

/-- What a group generates. -/
inductive Generator where
  | randomDigits (count : Nat)
  | randomLetters (count : Nat)
  | duplicate (repetition : Repetition)
  | reference (expression : Expression)
deriving DecidableEq

namespace Generator

/-- The random generator that a text denotes: it opens with `rn[` or `rc[`, closes with a bracket,
and its count is the first digit run in it. -/
def random? (content : Text) : Option Generator :=
  if content.getLast? = some ']' then
    match content with
    | 'r' :: 'n' :: '[' :: _ => some (.randomDigits (Text.firstCount content))
    | 'r' :: 'c' :: '[' :: _ => some (.randomLetters (Text.firstCount content))
    | _ => none
  else none

/-- Read the contents of a group. -/
def parse (content : Text) : Generator :=
  match random? content with
  | some generator => generator
  | none =>
    match Repetition.parse? content with
    | some repetition => .duplicate repetition
    | none => .reference (Expression.parse content)

/-- The canonical contents of a group. -/
def render : Generator → Text
  | .randomDigits count => 'r' :: 'n' :: '[' :: Text.ofNat count ++ [']']
  | .randomLetters count => 'r' :: 'c' :: '[' :: Text.ofNat count ++ [']']
  | .duplicate repetition => repetition.render
  | .reference expression => expression.render

end Generator

end FormFill
