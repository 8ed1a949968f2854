import FormFill.FieldValue

/-! # JSON values

A JSON value keeps the members of an object in the order in which they are written, repetitions
included. A number is an integer as long as it is written without fraction and exponent and fits 64
bits, and otherwise a binary number.
-/

namespace FormFill

/-- A JSON number as it is read. -/
inductive Numeral where
  | integer (value : Int)
  | real (value : Binary64)
deriving DecidableEq

namespace Numeral

/-- The binary number that a numeral stands for. -/
def toBinary64 : Numeral → Binary64
  | .integer value => Binary64.ofInt value
  | .real value => value

end Numeral

/-- A JSON value. -/
inductive Json where
  | null
  | boolean (value : Bool)
  | number (value : Numeral)
  | string (content : Text)
  | array (items : List Json)
  | object (members : List (Text × Json))

/-- Numbers are written in place while the decimal exponent is from -5 to 15, whole numbers with a
zero fraction, the sign of a zero is kept, and a digit tie goes to the even digit. What is no finite
number is written as null. -/
def NumberStyle.json : NumberStyle where
  tie := .even
  lowest := -5
  highest := 15
  wholeMark := ".0".toList
  zero := "0.0".toList
  negativeZero := "-0.0".toList
  nan := "null".toList
  infinity := "null".toList
  negativeInfinity := "null".toList

namespace FieldValue

/-- A field value as a JSON value. -/
def toJson : FieldValue → Json
  | .text content => .string content
  | .number value => .number (.real value)
  | .boolean value => .boolean value

/-- The field value that a JSON value holds; null, arrays and objects hold none. -/
def ofJson? : Json → Option FieldValue
  | .string content => some (.text content)
  | .number value => some (.number value.toBinary64)
  | .boolean value => some (.boolean value)
  | .null | .array _ | .object _ => none

end FieldValue

end FormFill
