import FormFill.Json.Value
import FormFill.Text.Quoted

/-! # Reasons why JSON text is refused

Text can end too early, break the grammar, or hold a value of another shape than the reader wants.
Every reason belongs to one of these three classes and has one wording.
-/

namespace FormFill.Json

/-- What the text was in the middle of when it ended. -/
inductive Unfinished where
  | list
  | object
  | text
  | value
deriving DecidableEq

/-- How the grammar can be broken. -/
inductive Malformed where
  | expectedColon
  | expectedListCommaOrEnd
  | expectedObjectCommaOrEnd
  | expectedIdentifier
  | expectedValue
  | keyMustBeText
  | invalidNumber
  | numberOutOfRange
  | trailingComma
  | trailingCharacters
  | invalidEscape
  | controlCharacter
  | loneSurrogate
  | unfinishedSurrogate
  | recursionLimit
deriving DecidableEq

/-- A value that was met in a place where its type is not wanted. -/
inductive Found where
  | null
  | boolean (value : Bool)
  | number (value : Numeral)
  | text (content : Text)
  | sequence
  | map
deriving DecidableEq

/-- What was wanted in that place. -/
inductive Wanted where
  | map
  | sequence
  | text
  | spec
deriving DecidableEq

/-- How a well-formed value can fail to be what the reader wants. -/
inductive Unfit where
  | type (found : Found) (wanted : Wanted)
  | emptySpec
  | missingField (key : Text)
  | duplicateField (key : Text)
  | noFieldValue
deriving DecidableEq

/-- Why a text was refused. -/
inductive ReadError where
  | unfinished (during : Unfinished)
  | malformed (fault : Malformed)
  | unfit (fault : Unfit)
deriving DecidableEq

namespace Unfinished

def message : Unfinished → Text
  | .list => "EOF while parsing a list".toList
  | .object => "EOF while parsing an object".toList
  | .text => "EOF while parsing a string".toList
  | .value => "EOF while parsing a value".toList

end Unfinished

namespace Malformed

def message : Malformed → Text
  | .expectedColon => "expected `:`".toList
  | .expectedListCommaOrEnd => "expected `,` or `]`".toList
  | .expectedObjectCommaOrEnd => "expected `,` or `\x7d`".toList
  | .expectedIdentifier => "expected ident".toList
  | .expectedValue => "expected value".toList
  | .keyMustBeText => "key must be a string".toList
  | .invalidNumber => "invalid number".toList
  | .numberOutOfRange => "number out of range".toList
  | .trailingComma => "trailing comma".toList
  | .trailingCharacters => "trailing characters".toList
  | .invalidEscape => "invalid escape".toList
  | .controlCharacter =>
    "control character (\\u0000-\\u001F) found while parsing a string".toList
  | .loneSurrogate => "lone leading surrogate in hex escape".toList
  | .unfinishedSurrogate => "unexpected end of hex escape".toList
  | .recursionLimit => "recursion limit exceeded".toList

end Malformed

/-- A text between backticks. -/
def marked (text : Text) : Text := '`' :: text ++ ['`']

namespace Found

def message : Found → Text
  | .null => "null".toList
  | .boolean value => "boolean ".toList ++ marked (FieldValue.booleanText value)
  | .number (.integer value) => "integer ".toList ++ marked (Text.ofInt value)
  | .number (.real value) => "floating point ".toList ++ marked (value.text .json)
  | .text content => "string ".toList ++ Text.quoted content
  | .sequence => "sequence".toList
  | .map => "map".toList

end Found

namespace Wanted

def message : Wanted → Text
  | .map => "a map".toList
  | .sequence => "a sequence".toList
  | .text => "a string".toList
  | .spec => "struct FieldSpec".toList

end Wanted

namespace Unfit

def message : Unfit → Text
  | .type found wanted =>
    "invalid type: ".toList ++ found.message ++ ", expected ".toList ++ wanted.message
  | .emptySpec => "invalid length 0, expected struct FieldSpec with 5 elements".toList
  | .missingField key => "missing field ".toList ++ marked key
  | .duplicateField key => "duplicate field ".toList ++ marked key
  | .noFieldValue => "data did not match any variant of untagged enum FieldValue".toList

end Unfit

namespace ReadError

/-- The wording of a reason. -/
def message : ReadError → Text
  | .unfinished during => during.message
  | .malformed fault => fault.message
  | .unfit fault => fault.message

end ReadError

/-- A reader consumes the front of a text, or refuses the text. -/
abbrev Reader (α : Type) := Text → Except ReadError (α × Text)

/-- Refuse a text that ends too early. -/
def unfinished {α : Type} (during : Unfinished) : Except ReadError α := .error (.unfinished during)

/-- Refuse a text that breaks the grammar. -/
def malformed {α : Type} (fault : Malformed) : Except ReadError α := .error (.malformed fault)

/-- Refuse a value that does not fit. -/
def unfit {α : Type} (fault : Unfit) : Except ReadError α := .error (.unfit fault)

end FormFill.Json
