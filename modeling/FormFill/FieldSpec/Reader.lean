import FormFill.FieldSpec
import FormFill.InputError
import FormFill.Json.Reader

/-! # Reading specifications

A list of specifications is a JSON array. Each element is an object, in which unknown members are
passed over and a known one must not be repeated, or an array of the five parts in their order, of
which only the first is required. A null stands for a part that is not given.
-/

namespace FormFill

/-- The parts of a specification. -/
inductive SpecKey where
  | id
  | value
  | dependsOn
  | generationRule
  | maxGeneration
deriving DecidableEq

namespace SpecKey

/-- The member name of a part. -/
def name : SpecKey → Text
  | .id => "id".toList
  | .value => "value".toList
  | .dependsOn => "dependsOn".toList
  | .generationRule => "generationRule".toList
  | .maxGeneration => "maxGeneration".toList

/-- All parts, in their order. -/
def all : List SpecKey := [.id, .value, .dependsOn, .generationRule, .maxGeneration]

/-- The part that a member name denotes. -/
def ofName? (name : Text) : Option SpecKey := all.find? (·.name = name)

end SpecKey

/-- The parts of a specification that have been read; a part that is null has been read too. -/
structure PartialSpec where
  id : Option Text
  value : Option (Option FieldValue)
  dependsOn : Option (Option Text)
  generationRule : Option (Option Text)
  maxGeneration : Option (Option Text)
deriving DecidableEq

namespace PartialSpec

def empty : PartialSpec := ⟨none, none, none, none, none⟩

/-- Whether a part has been read. -/
def has (spec : PartialSpec) : SpecKey → Bool
  | .id => spec.id.isSome
  | .value => spec.value.isSome
  | .dependsOn => spec.dependsOn.isSome
  | .generationRule => spec.generationRule.isSome
  | .maxGeneration => spec.maxGeneration.isSome

/-- The specification, unless its id is missing. -/
def complete? (spec : PartialSpec) : Option FieldSpec :=
  spec.id.map fun id =>
    ⟨id, spec.value.join, spec.dependsOn.join, spec.generationRule.join, spec.maxGeneration.join⟩

end PartialSpec

namespace FieldSpec

open Json

/-- How deep the value of a specification may nest, inside the list and the specification. -/
def valueDepth : Nat := depthLimit - 2

/-- Read one part. -/
def readPart (spec : PartialSpec) : SpecKey → Reader PartialSpec
  | .id => fun text => do
    let (id, text) ← readString text
    return ({ spec with id := some id }, text)
  | .value => fun text => do
    let (value, text) ← readOptionalFieldValue valueDepth text
    return ({ spec with value := some value }, text)
  | .dependsOn => fun text => do
    let (rule, text) ← readOptionalString text
    return ({ spec with dependsOn := some rule }, text)
  | .generationRule => fun text => do
    let (rule, text) ← readOptionalString text
    return ({ spec with generationRule := some rule }, text)
  | .maxGeneration => fun text => do
    let (rule, text) ← readOptionalString text
    return ({ spec with maxGeneration := some rule }, text)

/-- Read what follows a member name. A repeated part is refused before its colon. -/
def readPartNamed (spec : PartialSpec) (name : Text) : Reader PartialSpec := fun text =>
  match SpecKey.ofName? name with
  | some key =>
    if spec.has key then unfit (.duplicateField key.name)
    else do
      let (_, text) ← readColon text
      readPart spec key text
  | none => do
    let (_, text) ← readColon text
    let (_, text) ← skipValue text
    return (spec, text)

/-- Read a specification written as an object, after its opening brace. -/
def readMembers : Reader FieldSpec := fun text => do
  let (spec, text) ← objectBody .reading readLiteral readPartNamed .empty text
  match spec.complete? with
  | some spec => return (spec, text)
  | none => unfit (.missingField SpecKey.id.name)

/-- Come to the next part of a specification written as an array; `false` at its closing bracket,
which is left in place. -/
def nextPart (first : Bool) : Reader Bool := fun text =>
  match skipSpace text with
  | [] => unfinished .list
  | c :: rest =>
    if c = ']' then .ok (false, c :: rest)
    else if first then .ok (true, c :: rest)
    else if c = ',' then
      match skipSpace rest with
      | [] => unfinished .value
      | ']' :: _ => malformed .trailingComma
      | rest => .ok (true, rest)
    else malformed .expectedListCommaOrEnd

/-- Read further parts, as many as there are. -/
def readParts : List SpecKey → PartialSpec → Reader PartialSpec
  | [], spec, text => .ok (spec, text)
  | key :: keys, spec, text => do
    let (more, text) ← nextPart (key = .id) text
    if more then
      let (spec, text) ← readPart spec key text
      readParts keys spec text
    else return (spec, text)

/-- The closing bracket after the parts. -/
def readClosing : Reader Unit := fun text =>
  match skipSpace text with
  | ']' :: rest => .ok ((), rest)
  | ',' :: rest =>
    match skipSpace rest with
    | ']' :: _ => malformed .trailingComma
    | _ => malformed .trailingCharacters
  | [] => unfinished .list
  | _ => malformed .trailingCharacters

/-- Read a specification written as an array, after its opening bracket. -/
def readSequence : Reader FieldSpec := fun text => do
  let (spec, text) ← readParts SpecKey.all .empty text
  match spec.complete? with
  | some spec =>
    let (_, text) ← readClosing text
    return (spec, text)
  | none => unfit .emptySpec

/-- Read a specification. -/
def readOne : Reader FieldSpec := fun text => do
  let (token, text) ← readToken text
  match token with
  | .openObject => readMembers text
  | .openArray => readSequence text
  | token => refuse token .spec

/-- Read a list of specifications. -/
def readList : Reader (List FieldSpec) := fun text => do
  let (token, text) ← readToken text
  match token with
  | .openArray => arrayBody .reading readOne text
  | token => refuse token .sequence

/-- The specifications that a JSON text holds. -/
def read (text : Text) : Except InputError (List FieldSpec) :=
  InputError.ofJson (readAll readList text)

end FieldSpec

end FormFill
