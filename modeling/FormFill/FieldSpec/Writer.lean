import FormFill.FieldSpec
import FormFill.Json.Writer

/-! # Writing specifications

A specification is written as an object of its parts in their order; parts that are not given are
left out.
-/

namespace FormFill.FieldSpec

/-- The member for a part that may be left out. -/
def member? (name : Text) : Option Json → List (Text × Json)
  | some value => [(name, value)]
  | none => []

/-- A specification as a JSON value. -/
def toJson (spec : FieldSpec) : Json :=
  .object <|
    ("id".toList, .string spec.id) ::
      (member? "value".toList (spec.value.map (·.toJson)) ++
        member? "dependsOn".toList (spec.dependsOn.map .string) ++
        member? "generationRule".toList (spec.generationRule.map .string) ++
        member? "maxGeneration".toList (spec.maxGeneration.map .string))

/-- A list of specifications as compact JSON text. -/
def write (specs : List FieldSpec) : Text := (Json.array (specs.map toJson)).compact

end FormFill.FieldSpec
