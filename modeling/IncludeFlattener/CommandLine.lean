/-
IncludeFlattener.CommandLine — one run of the program.

A run reads, then decides, then writes. `conclude` is everything up to the
writing: it needs a source of files and changes nothing. Only where the
text is complete and has an output path of its own is there anything left
to do, and that is a single write. `runUnder` carries this out in a tree of
files, so a tree is changed by at most that write, after everything was
read (`runUnder_snd`), and a run that ends with another status than 0 leaves
its tree as it was. What a setting of the log means is left open there; `run`
takes it for a list of rules.
-/
import IncludeFlattener.CommandLine.Arguments
import IncludeFlattener.CommandLine.Filter
import IncludeFlattener.FileTree.Source
namespace IncludeFlattener.CommandLine

/-! ## 1. What a run shows -/

/-- What a run leaves behind, its file apart. -/
structure Outcome where
  status : Nat
  /-- The standard output. -/
  output : Text
  /-- The standard error. -/
  errors : Text
  deriving DecidableEq, Repr

/-- What the program is and what can be asked of it. -/
def helpText : Text := Text.endLines <| [
  "Flatten a shader by inlining its include directives",
  "",
  "Usage: glsl-include [OPTIONS] <FILE>",
  "",
  "Arguments:",
  "  <FILE>  Top-level shader file",
  "",
  "Options:",
  "      --keyword <KEYWORD>  Keyword marking an include line; "
    ++ "must start the line [default: //#include]",
  "  -o, --output <OUTPUT>    Write the flattened source here "
    ++ "instead of stdout",
  "      --report             Log every inlined file and every "
    ++ "skipped duplicate include",
  "  -h, --help               Print help",
  "  -V, --version            Print version"].map String.toList

/-- The name of the program and its version. -/
def versionText : Text := "glsl-include 0.1.0\n".toList

/-- What is shown where the arguments are not carried out. -/
def Stop.outcome : Stop → Outcome
  | .usage e => ⟨2, [], "error: ".toList ++ e.message
      ++ "\n\nFor more information, try '--help'.\n".toList⟩
  | .help => ⟨0, helpText, []⟩
  | .version => ⟨0, versionText, []⟩

/-- The causes of an error, each on its line: numbered, if there is more
than one. -/
def causeLines : List Text → List Text
  | [cause] => ["    ".toList ++ cause]
  | causes => causes.zipIdx.map fun (cause, n) =>
      "    ".toList ++ Text.Decimal.write n ++ ": ".toList ++ cause

/-- An error, and what it was caused by. -/
def errorText (what : Text) (causes : List Text) : Text :=
  Text.endLines <| ("Error: ".toList ++ what) ::
    if causes = [] then []
    else [] :: "Caused by:".toList :: causeLines causes

/-- A failure and what lies behind it. -/
def causesOf (f : Failure) : List Text := f.message :: f.cause?.toList

/-! ## 2. A run up to its end, or up to its write -/

/-- Where a run has come to when everything was read. -/
inductive Conclusion where
  /-- There is nothing left to do. -/
  | ended (outcome : Outcome)
  /-- A file is left to write; so much was logged before. -/
  | writing (path : Path) (contents log : Text)
  deriving DecidableEq, Repr

/-- The conclusion from the arguments and the files. -/
def conclude (source : Source) (filter : Filter) (args : Arguments) :
    Conclusion :=
  match Keyword.ofText? args.keyword with
  | none => .ended ⟨1, [], errorText Keyword.emptyMessage []⟩
  | some keyword =>
    let w := walk source keyword args.file
    let steps := w.events.map Record.ofEvent
    match w.result with
    | .error f =>
      .ended ⟨1, [], logText filter steps
        ++ errorText ("failed to resolve includes of ".toList ++ args.file)
          (causesOf f)⟩
    | .ok f =>
      let log := logText filter
        (steps ++ if args.report then accountOf f else [])
      match args.output with
      | none => .ended ⟨0, f.text, log⟩
      | some path => .writing path f.text log

/-- The outcome once the file is written. -/
def written (log : Text) : Outcome := ⟨0, [], log⟩

/-- The outcome if the file could not be written. -/
def notWritten (path : Path) (log reason : Text) : Outcome :=
  ⟨1, [], log ++ errorText ("failed to write ".toList ++ path) [reason]⟩

/-! ## 3. A run in a tree of files -/

/-- A run with these words, under a setting of the log. -/
def runUnder (settings : Settings) (tree : FileTree) (setting : Option Text)
    (words : List Text) : Outcome × FileTree :=
  match Arguments.ofWords words with
  | .error stop => (stop.outcome, tree)
  | .ok args =>
    match conclude tree.source (settings.filterOf setting) args with
    | .ended outcome => (outcome, tree)
    | .writing path contents log =>
      match tree.write path (Text.Utf8.encode contents) with
      | .ok after => (written log, after)
      | .error trouble => (notWritten path log trouble.message, tree)

/-- A run under a setting that is a list of rules. -/
def run (tree : FileTree) (setting : Option Text) (words : List Text) :
    Outcome × FileTree :=
  runUnder .byRules tree setting words

/-- A run leaves its tree as it was, or writes one file in it and ends with
status 0. -/
theorem runUnder_snd (settings : Settings) (tree : FileTree)
    (setting : Option Text) (words : List Text) :
    (runUnder settings tree setting words).2 = tree ∨
      (runUnder settings tree setting words).1.status = 0 ∧
        ∃ path contents, tree.write path contents
          = .ok (runUnder settings tree setting words).2 := by
  unfold runUnder
  split
  · exact .inl rfl
  · split
    · exact .inl rfl
    · split
      · rename_i h
        exact .inr ⟨rfl, _, _, h⟩
      · exact .inl rfl

end IncludeFlattener.CommandLine
