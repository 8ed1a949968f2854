import FormFill.Text.Decimal

/-! # Command lines

A command line names a command and then gives it positional arguments and options, in any order. An
option with a value takes it from the same argument (`--seed=5`, `-fa=1`) or from the next one,
which must not itself look like an option. After `--` every argument is positional. A command line
that does not fit its command's form is refused as a whole.
-/

namespace FormFill

/-- What an option is for. -/
inductive OptionName where
  | field
  | fields
  | specs
  | seed
  | max
  | noFields
  | explain
  | color
  | noColor
deriving DecidableEq

namespace OptionName

/-- The long form of an option, without its dashes. -/
def long : OptionName → Text
  | .field => "field".toList
  | .fields => "fields".toList
  | .specs => "specs".toList
  | .seed => "seed".toList
  | .max => "max".toList
  | .noFields => "no-fields".toList
  | .explain => "explain".toList
  | .color => "color".toList
  | .noColor => "no-color".toList

/-- The letter of an option that has a short form. -/
def short? : OptionName → Option Char
  | .field => some 'f'
  | _ => none

/-- Whether an option has a value. -/
def hasValue : OptionName → Bool
  | .field | .fields | .specs | .seed | .max => true
  | .noFields | .explain | .color | .noColor => false

end OptionName

/-- An argument as it is understood. -/
inductive Argument where
  | positional (text : Text)
  | option (name : OptionName) (value : Text)
  | flag (name : OptionName)
deriving DecidableEq

namespace Argument

/-- Whether a text can be the value of the option before it: a lone dash can, another text that
begins with a dash cannot. -/
def isValue : Text → Bool
  | ['-'] => true
  | '-' :: _ => false
  | _ => true

/-- Read arguments from left to right; none when one of them is not understood. -/
def read (allowed : List OptionName) : List Text → Option (List Argument)
  | [] => some []
  | argument :: rest =>
    match argument with
    | ['-', '-'] => some (rest.map .positional)
    | '-' :: '-' :: body =>
      match allowed.find? (·.long = body.takeWhile (· != '=')), body.dropWhile (· != '=') with
      | none, _ => none
      | some name, _ :: value =>
        if name.hasValue then (read allowed rest).map (.option name value :: ·) else none
      | some name, [] =>
        if name.hasValue then
          match rest with
          | value :: rest =>
            if isValue value then (read allowed rest).map (.option name value :: ·) else none
          | [] => none
        else (read allowed rest).map (.flag name :: ·)
    | '-' :: c :: body =>
      match allowed.find? (·.short? = some c) with
      | none => none
      | some name =>
        match body, rest with
        | [], value :: rest =>
          if isValue value then (read allowed rest).map (.option name value :: ·) else none
        | [], [] => none
        | '=' :: value, rest => (read allowed rest).map (.option name value :: ·)
        | value, rest => (read allowed rest).map (.option name value :: ·)
    | text => (read allowed rest).map (.positional text :: ·)

/-- The positional arguments, in order. -/
def positionals (arguments : List Argument) : List Text :=
  arguments.filterMap fun
    | .positional text => some text
    | _ => none

/-- The values of an option, in order. -/
def values (name : OptionName) (arguments : List Argument) : List Text :=
  arguments.filterMap fun
    | .option other value => if other = name then some value else none
    | _ => none

/-- The value of an option that may be given once; none when it is given more often. -/
def value? (name : OptionName) (arguments : List Argument) : Option (Option Text) :=
  match values name arguments with
  | [] => some none
  | [value] => some (some value)
  | _ => none

/-- Whether a flag that may be given once is given; none when it is given more often. -/
def flag? (name : OptionName) (arguments : List Argument) : Option Bool :=
  match arguments.count (.flag name) with
  | 0 => some false
  | 1 => some true
  | _ => none

end Argument

/-- Where a command gets known field values from. -/
structure FieldArguments where
  file : Option Text
  pairs : List Text
deriving DecidableEq

/-- When a report is coloured. -/
inductive ColorChoice where
  | always
  | never
  | onTerminal
deriving DecidableEq

/-- What a generation is asked for besides its rule. -/
structure GenerateArguments where
  fields : FieldArguments
  withFields : Bool
  seed : Option UInt64
  padding : Option Text
  explain : Bool
  color : ColorChoice
deriving DecidableEq

/-- A command with its arguments. -/
inductive Command where
  | extract (expression : Text) (fields : FieldArguments)
  | generate (rule : Text) (arguments : GenerateArguments)
  | pad (value rule : Text)
  | populate (specs : Text) (fields : FieldArguments) (seed : Option UInt64)
deriving DecidableEq

namespace Command

/-- A seed: decimal digits, perhaps after a plus sign, for a 64-bit number. -/
def seed? (text : Text) : Option UInt64 :=
  let digits := match text with
    | '+' :: rest => rest
    | text => text
  if digits ≠ [] ∧ digits.all Text.isDigit ∧ Text.decimalValue digits < Text.countLimit then
    some (UInt64.ofNat (Text.decimalValue digits))
  else none

/-- The seed of a command line; it may be left out. -/
def readSeed (arguments : List Argument) : Option (Option UInt64) := do
  match ← Argument.value? .seed arguments with
  | some text => (seed? text).map some
  | none => some none

/-- A file name of a command line; it may be left out but not empty. -/
def readFileName (name : OptionName) (arguments : List Argument) : Option (Option Text) := do
  match ← Argument.value? name arguments with
  | some [] => none
  | file => some file

/-- The field arguments of a command line. -/
def readFields (arguments : List Argument) : Option FieldArguments := do
  let file ← readFileName .fields arguments
  return ⟨file, Argument.values .field arguments⟩

/-- Read the arguments of `extract`. -/
def readExtract (texts : List Text) : Option Command := do
  let arguments ← Argument.read [.field, .fields] texts
  let [expression] := Argument.positionals arguments | none
  return .extract expression (← readFields arguments)

/-- The colour flags of a command line; they exclude each other. -/
def readColor (arguments : List Argument) : Option ColorChoice := do
  match ← Argument.flag? .color arguments, ← Argument.flag? .noColor arguments with
  | true, true => none
  | true, false => some .always
  | false, true => some .never
  | false, false => some .onTerminal

/-- Read the arguments of `generate`. -/
def readGenerate (texts : List Text) : Option Command := do
  let arguments ← Argument.read
    [.field, .fields, .noFields, .seed, .max, .explain, .color, .noColor] texts
  let [rule] := Argument.positionals arguments | none
  let fields ← readFields arguments
  let noFields ← Argument.flag? .noFields arguments
  let seed ← readSeed arguments
  let padding ← Argument.value? .max arguments
  let explain ← Argument.flag? .explain arguments
  let color ← readColor arguments
  return .generate rule ⟨fields, !noFields, seed, padding, explain, color⟩

/-- Read the arguments of `pad`. -/
def readPad (texts : List Text) : Option Command := do
  let arguments ← Argument.read [] texts
  let [value, rule] := Argument.positionals arguments | none
  return .pad value rule

/-- Read the arguments of `populate`. The file of specifications is required. -/
def readPopulate (texts : List Text) : Option Command := do
  let arguments ← Argument.read [.field, .fields, .specs, .seed] texts
  let [] := Argument.positionals arguments | none
  let specs ← (← readFileName .specs arguments)
  return .populate specs (← readFields arguments) (← readSeed arguments)

/-- Read a command line; none when it does not fit the form of any command. -/
def read? : List Text → Option Command
  | [] => none
  | name :: texts =>
    if name = "extract".toList then readExtract texts
    else if name = "generate".toList then readGenerate texts
    else if name = "pad".toList then readPad texts
    else if name = "populate".toList then readPopulate texts
    else none

end Command

end FormFill
