import FormFill.Command.Elapsed
import FormFill.Command.Run

/-! # The program

The outermost layer: it fetches arguments, files, a random seed and the time, runs the command and
prints what the run leaves behind.
-/

namespace FormFill

/-- What the system says about a failed access. -/
def FileFault.ofError : IO.Error → FileFault
  | .alreadyExists _ code details | .noFileOrDirectory _ code details
  | .invalidArgument _ code details | .permissionDenied _ code details
  | .resourceExhausted _ code details | .inappropriateType _ code details
  | .noSuchThing _ code details | .interrupted _ code details
  | .otherError code details | .resourceBusy code details | .resourceVanished code details
  | .unsupportedOperation code details | .hardwareFault code details
  | .unsatisfiedConstraints code details | .illegalOperation code details
  | .protocolError code details | .timeExpired code details =>
    .system details.toList code.toNat
  | .unexpectedEof => .content "unexpected end of file".toList
  | .userError reason => .content reason.toList

/-- The contents of a file, or why there are none. -/
def readTextFile (path : Text) : IO (Except FileFault Text) := do
  let result ← (IO.FS.readBinFile (String.ofList path)).toBaseIO
  match result with
  | .ok bytes =>
    match String.fromUTF8? bytes with
    | some text => return .ok text.toList
    | none => return .error .notText
  | .error error => return .error (.ofError error)

/-- The file names that a command reads. -/
def Command.paths : Command → List Text
  | .extract _ fields => fields.file.toList
  | .generate _ arguments => arguments.fields.file.toList
  | .pad _ _ => []
  | .populate specs fields _ => fields.file.toList ++ [specs]

/-- The contents of all files that a command reads. -/
def readTextFiles : List Text → IO (List (Text × Except FileFault Text))
  | [] => return []
  | path :: paths => do
    let content ← readTextFile path
    let contents ← readTextFiles paths
    return (path, content) :: contents

/-- A random 64-bit seed. -/
def randomSeed : IO UInt64 := do
  let bytes ← IO.getRandomBytes 8
  return bytes.toList.foldl (fun seed byte => seed * 256 + byte.toUInt64) 0

/-- What is written about a panic with a message. -/
def panicNote (message : Text) : Text :=
  "\nthread 'main' panicked:\n".toList ++ message ++
    "\nnote: run with RUST_BACKTRACE=1 environment variable to display a backtrace\n".toList

/-- Run a command, taking the time of a first run into the report of the second. -/
def runTimed (command : Command) (environment : Environment) : IO Command.Outcome := do
  let start ← IO.monoNanosNow
  let first ← IO.lazyPure fun _ => command.run environment
  let size := first.stdout.length + first.stderr.length
  let stop ← IO.monoNanosNow
  let elapsed := if size = 0 then 0 else stop - start
  return command.run { environment with elapsed := Elapsed.text elapsed }

end FormFill

section Program

open FormFill

/-- The program: 0 after a result, 2 after a problem with the command line or an input, 101 after a
panic. -/
def main (arguments : List String) : IO UInt32 := do
  match Command.read? (arguments.map String.toList) with
  | none =>
    IO.eprintln "error: the command line is not understood"
    IO.eprintln "usage: extract EXPR | generate RULE | pad VALUE RULE | populate --specs FILE"
    return 2
  | some command =>
    let files ← readTextFiles command.paths
    let seed ← randomSeed
    let terminal ← (← IO.getStdout).isTty
    let lookUp (path : Text) : Except FileFault Text :=
      match files.find? (·.1 = path) with
      | some (_, content) => content
      | none => .error .missing
    let outcome ← runTimed command ⟨lookUp, .seeded seed, [], terminal, panicNote⟩
    IO.print (String.ofList outcome.stdout)
    IO.eprint (String.ofList outcome.stderr)
    return UInt32.ofNat outcome.exit

end Program
