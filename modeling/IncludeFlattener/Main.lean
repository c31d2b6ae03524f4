/-
IncludeFlattener.Main — the program.

Everything that is decided is decided by `CommandLine.conclude`. What
remains is to fetch the files that a walk asks for, to write the file that
a conclusion leaves to write, and to show the outcome.
-/
import IncludeFlattener.CommandLine
import IncludeFlattener.Source.Script
namespace IncludeFlattener.Main

/-- A failure of the system in words, with its number. -/
def numbered (code : UInt32) (words : String) : Text :=
  words.toList ++ " (os error ".toList ++ Text.Decimal.write code.toNat
    ++ [')']

/-- The failure of an action in words. -/
def reason : IO.Error → Text
  | .alreadyExists _ code words | .otherError code words
  | .resourceBusy code words | .resourceVanished code words
  | .unsupportedOperation code words | .hardwareFault code words
  | .unsatisfiedConstraints code words | .illegalOperation code words
  | .protocolError code words | .timeExpired code words
  | .interrupted _ code words | .noFileOrDirectory _ code words
  | .invalidArgument _ code words | .permissionDenied _ code words
  | .resourceExhausted _ code words | .inappropriateType _ code words
  | .noSuchThing _ code words => numbered code words
  | .unexpectedEof => "unexpected end of file".toList
  | .userError words => words.toList

/-- A file of the system, opened. -/
def openFile (path : Path) (mode : IO.FS.Mode) :
    IO (Except IO.Error IO.FS.Handle) :=
  (IO.FS.Handle.mk (String.ofList path) mode).toBaseIO

/-- The answer of the file system to a path. -/
def readFile (path : Path) : IO Answer := do
  if '\x00' ∈ path then
    return .error (.unopened FileTree.Trouble.nul.message)
  match ← openFile path .read with
  | .error (.noFileOrDirectory ..) => return .error .missing
  | .error e => return .error (.unopened (reason e))
  | .ok handle =>
    match ← handle.readBinToEnd.toBaseIO with
    | .error e => return .error (.unreadable (reason e))
    | .ok bytes =>
      match Text.Utf8.lines? bytes.toList with
      | none => return .error (.unreadable FileTree.notUtf8)
      | some lines => return .ok lines

/-- The answers to all paths that a walk reads. A walk stops at the first
path without an answer, so each round fetches one. -/
partial def fetch (keyword : Keyword) (file : Path) (known : Script) :
    IO Script := do
  let unanswered := (walk known.source keyword file).reads.find? fun path =>
    (known.fixed.lookup path).isNone
  match unanswered with
  | none => return known
  | some path => fetch keyword file (known.fix path (← readFile path))

/-- The answers that the arguments need. -/
def fetchFor (args : CommandLine.Arguments) : IO Script :=
  match Keyword.ofText? args.keyword with
  | none => return .empty
  | some keyword => fetch keyword args.file .empty

/-- Writes a file, and tells what kept it from being written. -/
def writeFile (path : Path) (contents : Text) : IO (Option Text) := do
  match ← openFile path .write with
  | .error e => return some (reason e)
  | .ok handle =>
    let bytes := (Text.Utf8.encode contents).toByteArray
    match ← (do handle.write bytes; handle.flush).toBaseIO with
    | .error e => return some (reason e)
    | .ok _ => return none

/-- Shows an outcome and gives its status. -/
def finish (outcome : CommandLine.Outcome) : IO UInt32 := do
  (← IO.getStderr).putStr (String.ofList outcome.errors)
  (← IO.getStdout).putStr (String.ofList outcome.output)
  return outcome.status.toUInt32

/-- A run with these words. -/
def runWith (words : List Text) : IO UInt32 := do
  match CommandLine.Arguments.ofWords words with
  | .error stop => finish stop.outcome
  | .ok args =>
    let setting := (← IO.getEnv "RUST_LOG").map String.toList
    let known ← fetchFor args
    let filter := CommandLine.Settings.byRules.filterOf setting
    match CommandLine.conclude known.source filter args with
    | .ended outcome => finish outcome
    | .writing path contents log =>
      match ← writeFile path contents with
      | none => finish (CommandLine.written log)
      | some reason => finish (CommandLine.notWritten path log reason)

end IncludeFlattener.Main

/-- Runs the program. -/
def main (args : List String) : IO UInt32 :=
  IncludeFlattener.Main.runWith (args.map String.toList)
