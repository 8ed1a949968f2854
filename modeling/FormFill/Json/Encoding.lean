import FormFill.Json.Writer

/-! # Values on their way out

Results are handed to the writer as trees whose mappings may have keys of any kind. JSON knows only
texts as keys: a boolean, an integer or a finite number becomes its text, and any other key is
refused, with nothing written.
-/

namespace FormFill

/-- A value as it is handed to the writer. -/
inductive Encoding where
  | null
  | boolean (value : Bool)
  | number (value : Numeral)
  | text (content : Text)
  | sequence (items : List Encoding)
  | mapping (members : List (Encoding × Encoding))

namespace Json

/-- Why a value could not be written. -/
inductive WriteError where
  | keyMustBeText
  | numberKeyMustBeFinite
deriving DecidableEq

namespace WriteError

/-- The wording of a reason. -/
def message : WriteError → Text
  | .keyMustBeText => "key must be a string".toList
  | .numberKeyMustBeFinite => "float key must be finite (got NaN or +/-inf)".toList

end WriteError

end Json

namespace Encoding

/-- The text of a key. -/
def key : Encoding → Except Json.WriteError Text
  | .text content => .ok content
  | .boolean value => .ok (Json.writeBoolean value)
  | .number (.real .nan) | .number (.real (.infinity _)) => .error .numberKeyMustBeFinite
  | .number value => .ok value.write
  | .null | .sequence _ | .mapping _ => .error .keyMustBeText

mutual

/-- The JSON value that is written. -/
def json : Encoding → Except Json.WriteError Json
  | .null => .ok .null
  | .boolean value => .ok (.boolean value)
  | .number value => .ok (.number value)
  | .text content => .ok (.string content)
  | .sequence items => do return .array (← jsonItems items)
  | .mapping members => do return .object (← jsonMembers members)

/-- The items that are written for a sequence. -/
def jsonItems : List Encoding → Except Json.WriteError (List Json)
  | [] => .ok []
  | item :: items => do
    let first ← item.json
    let others ← jsonItems items
    return first :: others

/-- The members that are written for a mapping. -/
def jsonMembers : List (Encoding × Encoding) → Except Json.WriteError (List (Text × Json))
  | [] => .ok []
  | (name, item) :: members => do
    let name ← name.key
    let first ← item.json
    let others ← jsonMembers members
    return (name, first) :: others

end

/-- The indented form of a whole text. -/
def pretty (value : Encoding) : Except Json.WriteError Text := value.json.map (·.pretty)

end Encoding

namespace FieldValue

/-- A field value as it is handed to the writer. -/
def encoding : FieldValue → Encoding
  | .text content => .text content
  | .number value => .number (.real value)
  | .boolean value => .boolean value

end FieldValue

end FormFill
