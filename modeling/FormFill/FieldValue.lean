import FormFill.NameMap
import FormFill.Number.Style

/-! # Field values

A form field holds text, a number or a boolean. Rules only ever see the display text of a value, and
whether the value counts as set.
-/

namespace FormFill

/-- A value known for a form field. -/
inductive FieldValue where
  | text (content : Text)
  | number (value : Binary64)
  | boolean (value : Bool)
deriving DecidableEq

/-- Known values by field name. -/
abbrev FieldMap := NameMap FieldValue

/-- Numbers are displayed in place from `10 ^ -6` up to below `10 ^ 21`, whole numbers without a
fraction, both zeros alike, and a digit tie goes up. -/
def NumberStyle.display : NumberStyle where
  tie := .up
  lowest := -6
  highest := 20
  wholeMark := []
  zero := "0".toList
  negativeZero := "0".toList
  nan := "NaN".toList
  infinity := "Infinity".toList
  negativeInfinity := "-Infinity".toList

namespace FieldValue

/-- The text of a boolean. -/
def booleanText (value : Bool) : Text := if value then "true".toList else "false".toList

/-- The text that a value is read as. -/
def display : FieldValue → Text
  | .text content => content
  | .number value => value.text .display
  | .boolean value => booleanText value

/-- Whether the value counts as set: not empty, not a zero, not not-a-number and not false. -/
def isTruthy : FieldValue → Bool
  | .text content => !content.isEmpty
  | .number value => value.isNonzero
  | .boolean value => value

/-- The number value of an integer. -/
def ofInt (i : Int) : FieldValue := .number (Binary64.ofInt i)

end FieldValue

namespace FieldMap

/-- The display text of a field, empty when the field is missing. -/
def displayOf (fields : FieldMap) (name : Text) : Text :=
  match fields.get? name with
  | some value => value.display
  | none => []

end FieldMap

end FormFill
