import FormFill.FieldValue
import FormFill.Rule.Expression

/-! # Extraction

Extracting an expression reads its field's display text and applies the selector to it. A missing
field reads as the empty text.
-/

namespace FormFill

namespace Expression

/-- The text that an expression denotes under known fields. -/
def extract (expression : Expression) (fields : FieldMap) : Text :=
  match expression.selector with
  | some selector => selector.apply (fields.displayOf expression.field)
  | none => fields.displayOf expression.field

end Expression

/-- Extract the expression that a text denotes. -/
def extract (expression : Text) (fields : FieldMap) : Text :=
  (Expression.parse expression).extract fields

end FormFill
