import FormFill.Json.Collection
import FormFill.Json.NumberLiteral

/-! # Reading JSON values

Reading begins with the token at the front: a whole scalar, or an opening bracket. Arrays and
objects are entered to a limited depth. A value that is only passed over has no such limit and is
checked less strictly.
-/

namespace FormFill.Json

/-- What stands at the front of a value. -/
inductive Token where
  | null
  | boolean (value : Bool)
  | number (value : Numeral)
  | string (content : Text)
  | openArray
  | openObject

namespace Token

/-- How a token is named where it is not wanted. -/
def found : Token → Found
  | .null => .null
  | .boolean value => .boolean value
  | .number value => .number value
  | .string content => .text content
  | .openArray => .sequence
  | .openObject => .map

end Token

/-- Read the remaining letters of a word whose first letter has been seen. -/
def readWord : Text → Text → Except ReadError Text
  | [], text => .ok text
  | _ :: _, [] => unfinished .value
  | letter :: letters, c :: text =>
    if c = letter then readWord letters text else malformed .expectedIdentifier

/-- The rest of a word, as a reader of the value that it stands for. -/
def readWordAs {α : Type} (letters : Text) (value : α) : Reader α := fun text =>
  (readWord letters text).map (value, ·)

/-- Read the token at the front. -/
def readToken : Reader Token := fun text =>
  match skipSpace text with
  | [] => unfinished .value
  | c :: rest =>
    if c = 'n' then readWordAs ['u', 'l', 'l'] .null rest
    else if c = 't' then readWordAs ['r', 'u', 'e'] (.boolean true) rest
    else if c = 'f' then readWordAs ['a', 'l', 's', 'e'] (.boolean false) rest
    else if c = '"' then (readLiteral rest).map fun (content, rest) => (.string content, rest)
    else if c = '[' then .ok (.openArray, rest)
    else if c = '{' then .ok (.openObject, rest)
    else if c = '-' ∨ Text.isDigit c then
      (readNumber (c :: rest)).map fun (value, rest) => (.number value, rest)
    else malformed .expectedValue

/-- The reader of a member that adds it to those before. -/
def readMember (value : Reader Json) (before : List (Text × Json)) (name : Text) :
    Reader (List (Text × Json)) := fun text => do
  let (_, text) ← readColon text
  let (content, text) ← value text
  return (before ++ [(name, content)], text)

/-- Read a value that may enter `depth` nested arrays and objects. -/
def readValue (depth : Nat) : Reader Json := fun text => do
  let (token, text) ← readToken text
  match token with
  | .null => return (.null, text)
  | .boolean value => return (.boolean value, text)
  | .number value => return (.number value, text)
  | .string content => return (.string content, text)
  | .openArray =>
    match depth with
    | 0 => malformed .recursionLimit
    | depth + 1 =>
      let (content, text) ← arrayBody .reading (readValue depth) text
      return (.array content, text)
  | .openObject =>
    match depth with
    | 0 => malformed .recursionLimit
    | depth + 1 =>
      let (content, text) ← objectBody .reading readLiteral (readMember (readValue depth)) [] text
      return (.object content, text)

/-- How many nested arrays and objects a text may enter. -/
def depthLimit : Nat := 127

/-- The reader of a member that is passed over. -/
def skipMember (value : Reader Unit) (_ : Unit) (_ : Unit) : Reader Unit := fun text => do
  let (_, text) ← readColon text
  value text

/-- Pass over a value that enters at most `depth` nested arrays and objects. -/
def skipNested (depth : Nat) : Reader Unit := fun text =>
  match skipSpace text with
  | [] => unfinished .value
  | c :: rest =>
    if c = 'n' then readWordAs ['u', 'l', 'l'] () rest
    else if c = 't' then readWordAs ['r', 'u', 'e'] () rest
    else if c = 'f' then readWordAs ['a', 'l', 's', 'e'] () rest
    else if c = '"' then skipLiteral rest
    else if c = '-' ∨ Text.isDigit c then skipNumber (c :: rest)
    else
      match depth with
      | 0 => malformed .expectedValue
      | depth + 1 =>
        if c = '[' then
          (arrayBody .skipping (skipNested depth) rest).map fun (_, rest) => ((), rest)
        else if c = '{' then
          objectBody .skipping skipLiteral (skipMember (skipNested depth)) () rest
        else malformed .expectedValue

/-- Pass over a value. A text cannot nest deeper than it is long, so there is no limit on depth. -/
def skipValue : Reader Unit := fun text => skipNested text.length text

/-- Read a whole text: nothing but blanks may follow what the reader consumes. -/
def readAll {α : Type} (reader : Reader α) (text : Text) : Except ReadError α := do
  let (value, rest) ← reader text
  match skipSpace rest with
  | [] => return value
  | _ => malformed .trailingCharacters

/-- Refuse a token where something else is wanted. -/
def refuse {α : Type} (token : Token) (wanted : Wanted) : Except ReadError α :=
  unfit (.type token.found wanted)

/-- Read a string and nothing else. -/
def readString : Reader Text := fun text => do
  let (token, text) ← readToken text
  match token with
  | .string content => return (content, text)
  | token => refuse token .text

/-- Read a string, or null for none. -/
def readOptionalString : Reader (Option Text) := fun text => do
  let (token, text) ← readToken text
  match token with
  | .string content => return (some content, text)
  | .null => return (none, text)
  | token => refuse token .text

/-- Read a field value: the whole value is read before it is refused. -/
def readFieldValue (depth : Nat) : Reader FieldValue := fun text => do
  let (value, text) ← readValue depth text
  match FieldValue.ofJson? value with
  | some value => return (value, text)
  | none => unfit .noFieldValue

/-- Read a field value, or null for none. -/
def readOptionalFieldValue (depth : Nat) : Reader (Option FieldValue) := fun text => do
  let (value, text) ← readValue depth text
  match value with
  | .null => return (none, text)
  | value =>
    match FieldValue.ofJson? value with
    | some value => return (some value, text)
    | none => unfit .noFieldValue

end FormFill.Json

namespace FormFill.FieldValue

/-- The field value that a JSON text holds. -/
def read (text : Text) : Except Json.ReadError FieldValue :=
  Json.readAll (Json.readFieldValue Json.depthLimit) text

end FormFill.FieldValue
