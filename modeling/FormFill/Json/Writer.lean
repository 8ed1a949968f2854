import FormFill.Json.TextLiteral

/-! # Writing JSON values

The compact form has no blanks. The indented form puts every item and member on a line of its own,
two spaces deeper than its brackets, and writes empty arrays and objects as a pair of brackets.
-/

namespace FormFill

namespace Numeral

/-- The literal of a numeral. -/
def write : Numeral → Text
  | .integer value => Text.ofInt value
  | .real value => value.text .json

end Numeral

namespace Json

/-- The word of a boolean. -/
def writeBoolean (value : Bool) : Text := FieldValue.booleanText value

mutual

/-- The compact form of a value. -/
def compact : Json → Text
  | .null => "null".toList
  | .boolean value => writeBoolean value
  | .number value => value.write
  | .string content => writeLiteral content
  | .array [] => ['[', ']']
  | .array (item :: items) => '[' :: item.compact ++ compactItems items ++ [']']
  | .object [] => ['{', '}']
  | .object ((name, item) :: members) =>
    '{' :: writeLiteral name ++ ':' :: item.compact ++ compactMembers members ++ ['}']

/-- The further items of an array, each after its comma. -/
def compactItems : List Json → Text
  | [] => []
  | item :: items => ',' :: item.compact ++ compactItems items

/-- The further members of an object, each after its comma. -/
def compactMembers : List (Text × Json) → Text
  | [] => []
  | (name, item) :: members =>
    ',' :: writeLiteral name ++ ':' :: item.compact ++ compactMembers members

end

/-- The start of a line at a depth. -/
def newLine (depth : Nat) : Text := '\n' :: List.replicate (2 * depth) ' '

mutual

/-- The indented form of a value inside `depth` brackets. -/
def indented (depth : Nat) : Json → Text
  | .null => "null".toList
  | .boolean value => writeBoolean value
  | .number value => value.write
  | .string content => writeLiteral content
  | .array [] => ['[', ']']
  | .array (item :: items) =>
    '[' :: newLine (depth + 1) ++ item.indented (depth + 1) ++ indentedItems (depth + 1) items ++
      newLine depth ++ [']']
  | .object [] => ['{', '}']
  | .object ((name, item) :: members) =>
    '{' :: newLine (depth + 1) ++ writeLiteral name ++ ':' :: ' ' :: item.indented (depth + 1) ++
      indentedMembers (depth + 1) members ++ newLine depth ++ ['}']

/-- The further items of an array, each after its comma. -/
def indentedItems (depth : Nat) : List Json → Text
  | [] => []
  | item :: items => ',' :: newLine depth ++ item.indented depth ++ indentedItems depth items

/-- The further members of an object, each after its comma. -/
def indentedMembers (depth : Nat) : List (Text × Json) → Text
  | [] => []
  | (name, item) :: members =>
    ',' :: newLine depth ++ writeLiteral name ++ ':' :: ' ' :: item.indented depth ++
      indentedMembers depth members

end

/-- The indented form of a whole text. -/
def pretty (value : Json) : Text := value.indented 0

end Json

end FormFill
