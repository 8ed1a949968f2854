import FormFill.Json.ReadError

/-! # Input errors

Resolution never fails; only reading field values and specifications can. An error names its cause,
and has one wording.
-/

namespace FormFill

/-- The JSON values that no field can hold. -/
inductive UnsupportedKind where
  | null
  | array
  | object
deriving DecidableEq

namespace UnsupportedKind

def label : UnsupportedKind → Text
  | .null => "null".toList
  | .array => "array".toList
  | .object => "object".toList

end UnsupportedKind

/-- Why field values or specifications could not be read. -/
inductive InputError where
  | json (reason : Json.ReadError)
  | assignment (pair : Text)
  | unsupported (field : Text) (kind : UnsupportedKind)
deriving DecidableEq

namespace InputError

/-- The wording of an error. -/
def message : InputError → Text
  | .json reason => "json error: ".toList ++ reason.message
  | .assignment pair =>
    "invalid field assignment '".toList ++ pair ++ "' (expected NAME=VALUE)".toList
  | .unsupported field kind =>
    "field '".toList ++ field ++ "' has unsupported value type ".toList ++ kind.label ++
      " (expected string, number or boolean)".toList

/-- A JSON reading as a reading of input. -/
def ofJson {α : Type} : Except Json.ReadError α → Except InputError α
  | .ok value => .ok value
  | .error reason => .error (.json reason)

end InputError

end FormFill
