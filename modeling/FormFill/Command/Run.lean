import FormFill.Command.Arguments
import FormFill.Command.Report
import FormFill.FieldMap.Reader
import FormFill.FieldSpec.Reader
import FormFill.Json.Encoding
import FormFill.Population
import FormFill.Random.ChaCha

/-! # Running commands

A command reads its inputs in a fixed order: the file of fields, the field assignments from left to
right, and the file of specifications. The first problem ends the run with nothing printed;
otherwise the result is printed whole. A result that cannot be written is told apart from a problem
with an input by another exit code, and so is the panic of a run that pads a value for which there
is no room. What the run needs from outside is handed to it: the contents of files, a random source
for runs without a seed, the text of the time taken, whether a terminal shows the output, and what
is written about a panic.
-/

namespace FormFill

/-- Why a file could not be read. -/
inductive FileFault where
  /-- The system gives a reason and its number. -/
  | system (reason : Text) (code : Nat)
  /-- The reason lies in what was read. -/
  | content (reason : Text)
deriving DecidableEq

namespace FileFault

/-- No file has the name. -/
def missing : FileFault := .system "No such file or directory".toList 2

/-- The name is that of a directory. -/
def directory : FileFault := .system "Is a directory".toList 21

/-- The bytes of the file are not those of a text. -/
def notText : FileFault := .content "stream did not contain valid UTF-8".toList

def message : FileFault → Text
  | .system reason code => reason ++ " (os error ".toList ++ Text.ofNat code ++ ")".toList
  | .content reason => reason

end FileFault

/-- Why a command failed. -/
inductive CommandError where
  | file (path : Text) (fault : FileFault)
  | input (error : InputError)
  | output (fault : Json.WriteError)
  /-- There is no room for a padded value; the run panics. -/
  | noRoom
deriving DecidableEq

namespace CommandError

/-- The wording of a failure. -/
def message : CommandError → Text
  | .file path fault => "failed to read ".toList ++ path ++ ": ".toList ++ fault.message
  | .input error => error.message
  | .output fault => "failed to write output: ".toList ++ fault.message
  | .noRoom => "capacity overflow".toList

/-- The exit code of a failure: 2 for its input, 1 for its output, 101 for a panic. -/
def exit : CommandError → Nat
  | .file _ _ | .input _ => 2
  | .output _ => 1
  | .noRoom => 101

/-- A reading of input as a part of a run. -/
def ofInput {α : Type} : Except InputError α → Except CommandError α
  | .ok value => .ok value
  | .error error => .error (.input error)

/-- A writing of output as a part of a run. -/
def ofOutput {α : Type} : Except Json.WriteError α → Except CommandError α
  | .ok value => .ok value
  | .error fault => .error (.output fault)

/-- A padding as a part of a run. -/
def ofPadding {α : Type} : Option α → Except CommandError α
  | some value => .ok value
  | none => .error .noRoom

end CommandError

/-- What a run is given from outside. -/
structure Environment where
  /-- The text of the file at a path. -/
  file : Text → Except FileFault Text
  /-- The random source of runs without a seed. -/
  source : Source
  /-- The text of the time taken. -/
  elapsed : Text
  /-- Whether the output goes to a terminal. -/
  terminal : Bool
  /-- What is written about a panic with a message. -/
  panic : Text → Text

namespace Environment

/-- Read a file. -/
def read (environment : Environment) (path : Text) : Except CommandError Text :=
  match environment.file path with
  | .ok text => .ok text
  | .error fault => .error (.file path fault)

/-- The source of a seed, or the given one without a seed. -/
def sourceFor (environment : Environment) : Option UInt64 → Source
  | some seed => .seeded seed
  | none => environment.source

/-- Whether a choice of colour gives colour. -/
def colors (environment : Environment) : ColorChoice → Bool
  | .always => true
  | .never => false
  | .onTerminal => environment.terminal

end Environment

namespace FieldArguments

/-- Take over assignments from left to right, up to the first that is none. -/
def assignAll : List Text → FieldMap → Except InputError FieldMap
  | [], fields => .ok fields
  | pair :: pairs, fields => do
    let (name, value) ← FieldMap.readAssignment pair
    assignAll pairs (fields.insert name value)

/-- The fields of the file, if there is one, with the assignments on top. -/
def load (arguments : FieldArguments) (environment : Environment) :
    Except CommandError FieldMap := do
  let fields ←
    match arguments.file with
    | some path => do CommandError.ofInput (FieldMap.read (← environment.read path))
    | none => pure ∅
  CommandError.ofInput (assignAll arguments.pairs fields)

end FieldArguments

namespace PopulatedField

/-- The result for one specification as it is handed to the writer. -/
def encoding (entry : PopulatedField) : Encoding :=
  .mapping [(.text "id".toList, .text entry.id), (.text "value".toList, entry.value.encoding),
    (.text "source".toList, .text entry.source.label),
    (.text "padded".toList, .boolean entry.padded)]

end PopulatedField

namespace Command

/-- The output of a generation over known fields. -/
def generateOutput (rule : Text) (arguments : GenerateArguments) (fields : FieldMap)
    (environment : Environment) : Except CommandError Text := do
  let trace := FormFill.explain rule (if arguments.withFields then some fields else none)
    (environment.sourceFor arguments.seed)
  let value ←
    match arguments.padding with
    | some padding => CommandError.ofPadding (Padding.paddedBy? padding trace.value)
    | none => pure trace.value
  if arguments.explain then
    return Report.render (environment.colors arguments.color) trace value environment.elapsed
  else return Report.line value

/-- The output of a population over known fields. -/
def populateOutput (specs : List FieldSpec) (seed : Option UInt64) (fields : FieldMap)
    (environment : Environment) : Except CommandError Text := do
  let population ←
    CommandError.ofPadding (FormFill.populate specs fields (environment.sourceFor seed))
  let result := Encoding.sequence (population.resolved.map (·.encoding))
  return Report.line (← CommandError.ofOutput result.pretty)

/-- What a command prints, unless the run fails. -/
def output (command : Command) (environment : Environment) : Except CommandError Text :=
  match command with
  | .extract expression fields => do
    let fields ← fields.load environment
    return Report.line (FormFill.extract expression fields)
  | .generate rule arguments => do
    let fields ← arguments.fields.load environment
    generateOutput rule arguments fields environment
  | .pad value rule => do
    let text ← CommandError.ofPadding (Padding.paddedBy? rule value)
    return Report.line text
  | .populate path fields seed => do
    let fields ← fields.load environment
    let specs ← CommandError.ofInput (FieldSpec.read (← environment.read path))
    populateOutput specs seed fields environment

/-- What a finished run leaves behind. -/
structure Outcome where
  exit : Nat
  stdout : Text
  stderr : Text
deriving DecidableEq

/-- What a failed run leaves behind: nothing but its exit code and a report. -/
def failed (error : CommandError) (environment : Environment) : Outcome :=
  match error with
  | .noRoom => ⟨error.exit, [], environment.panic error.message⟩
  | error => ⟨error.exit, [], Report.line ("error: ".toList ++ error.message)⟩

/-- Run a command. -/
def run (command : Command) (environment : Environment) : Outcome :=
  match command.output environment with
  | .ok text => ⟨0, text, []⟩
  | .error error => failed error environment

end Command

end FormFill
