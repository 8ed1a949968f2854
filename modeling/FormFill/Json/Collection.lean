import FormFill.Json.TextLiteral

/-! # JSON arrays and objects

The frame of arrays and objects (blanks, brackets, commas, keys and colons) is read in one way,
whatever their items are; an item brings its own reader. What is refused after a comma depends on
whether the value is read or only passed over. The recursion is bounded by the length of the text,
since every item is preceded by a comma or bracket of its own.
-/

namespace FormFill.Json

/-- The four characters that may stand between the parts of a JSON text. -/
def isSpace (c : Char) : Bool := c == ' ' || c == '\t' || c == '\n' || c == '\r'

/-- Pass over blanks. -/
def skipSpace (text : Text) : Text := text.dropWhile isSpace

/-- The reasons for which the text after a comma is refused. -/
structure CommaRule where
  /-- An array is closed after a comma. -/
  arrayClosed : ReadError
  /-- An object is closed after a comma. -/
  objectClosed : ReadError
  /-- The text ends after a comma of an object. -/
  objectEnded : ReadError

namespace CommaRule

/-- The rule for values that are read. -/
def reading : CommaRule where
  arrayClosed := .malformed .trailingComma
  objectClosed := .malformed .trailingComma
  objectEnded := .unfinished .value

/-- The rule for values that are passed over. -/
def skipping : CommaRule where
  arrayClosed := .malformed .expectedValue
  objectClosed := .malformed .keyMustBeText
  objectEnded := .unfinished .object

end CommaRule

/-- An item, and the further items of its array up to the closing bracket. -/
def items {α : Type} (rule : CommaRule) (item : Reader α) : Nat → Reader (List α)
  | 0, _ => unfinished .list
  | bound + 1, text => do
    let (first, text) ← item text
    match skipSpace text with
    | ']' :: rest => return ([first], rest)
    | ',' :: rest =>
      match skipSpace rest with
      | ']' :: _ => .error rule.arrayClosed
      | rest =>
        let (others, rest) ← items rule item bound rest
        return (first :: others, rest)
    | [] => unfinished .list
    | _ => malformed .expectedListCommaOrEnd

/-- The items of an array, after its opening bracket. -/
def arrayBody {α : Type} (rule : CommaRule) (item : Reader α) : Reader (List α) := fun text =>
  match skipSpace text with
  | ']' :: rest => .ok ([], rest)
  | [] => unfinished .list
  | rest => items rule item (rest.length + 1) rest

/-- The colon between a key and its value. -/
def readColon : Reader Unit := fun text =>
  match skipSpace text with
  | ':' :: rest => .ok ((), rest)
  | [] => unfinished .object
  | _ => malformed .expectedColon

/-- A member whose key has been opened, and the further members of its object. `key` reads a key
after its opening quote, and `member` what follows the key; each member turns one state into the
next. -/
def members {κ σ : Type} (rule : CommaRule) (key : Reader κ) (member : σ → κ → Reader σ) :
    Nat → σ → Reader σ
  | 0, _, _ => unfinished .object
  | bound + 1, state, text => do
    let (name, text) ← key text
    let (state, text) ← member state name text
    match skipSpace text with
    | '}' :: rest => return (state, rest)
    | ',' :: rest =>
      match skipSpace rest with
      | '"' :: rest => members rule key member bound state rest
      | '}' :: _ => .error rule.objectClosed
      | [] => .error rule.objectEnded
      | _ => malformed .keyMustBeText
    | [] => unfinished .object
    | _ => malformed .expectedObjectCommaOrEnd

/-- The members of an object, after its opening brace. -/
def objectBody {κ σ : Type} (rule : CommaRule) (key : Reader κ) (member : σ → κ → Reader σ)
    (start : σ) : Reader σ := fun text =>
  match skipSpace text with
  | '}' :: rest => .ok (start, rest)
  | '"' :: rest => members rule key member (rest.length + 1) start rest
  | [] => unfinished .object
  | _ => malformed .keyMustBeText

end FormFill.Json
