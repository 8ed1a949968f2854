import FormFill.FieldValue

/-! # Field specifications

A specification describes one form field: its name, perhaps a value entered for it, and up to three
rules: an expression it depends on, a generation rule and a padding rule.
-/

namespace FormFill

/-- The rules that populate one field. -/
structure FieldSpec where
  id : Text
  value : Option FieldValue
  dependsOn : Option Text
  generationRule : Option Text
  maxGeneration : Option Text
deriving DecidableEq

namespace FieldSpec

/-- A rule counts as given only when it is not empty. -/
def given (rule : Option Text) : Option Text := rule.filter (!·.isEmpty)

end FieldSpec

end FormFill
