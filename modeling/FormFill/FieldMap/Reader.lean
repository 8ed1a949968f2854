import FormFill.InputError
import FormFill.Json.Reader

/-! # Reading field maps

A field map is a JSON object of texts, numbers and booleans. The whole object is read first, and of
members with one name the last counts; only then are the values looked at, in ascending order of
name, so the first unsupported one in that order is reported. A single field can also be given as an
assignment, whose value is always text.
-/

namespace FormFill.FieldMap

/-- Read a JSON object and nothing else, as the map of its members. -/
def readObject : Json.Reader (NameMap Json) := fun text => do
  let (token, text) ← Json.readToken text
  match token with
  | .openObject =>
    let (members, text) ← Json.objectBody .reading Json.readLiteral
      (Json.readMember (Json.readValue (Json.depthLimit - 1))) [] text
    return (NameMap.ofList members, text)
  | token => Json.refuse token .map

/-- The field value of a JSON value, for the field of the given name. -/
def fieldValue (name : Text) : Json → Except InputError FieldValue
  | .string content => .ok (.text content)
  | .number value => .ok (.number value.toBinary64)
  | .boolean value => .ok (.boolean value)
  | .null => .error (.unsupported name .null)
  | .array _ => .error (.unsupported name .array)
  | .object _ => .error (.unsupported name .object)

/-- The field values of entries, up to the first unsupported one. -/
def fieldValues : List (Text × Json) → Except InputError (List (Text × FieldValue))
  | [] => .ok []
  | (name, content) :: rest => do
    let value ← fieldValue name content
    let values ← fieldValues rest
    return (name, value) :: values

/-- The field map that a JSON text holds. -/
def read (text : Text) : Except InputError FieldMap := do
  let object ← InputError.ofJson (Json.readAll readObject text)
  let values ← fieldValues object.entries
  return NameMap.ofList values

/-- The name and the text value of an assignment `name=value`, cut at its first `=`. -/
def readAssignment (pair : Text) : Except InputError (Text × FieldValue) :=
  match pair.takeWhile (· != '='), pair.dropWhile (· != '=') with
  | c :: name, _ :: value => .ok (c :: name, .text value)
  | _, _ => .error (.assignment pair)

end FormFill.FieldMap
