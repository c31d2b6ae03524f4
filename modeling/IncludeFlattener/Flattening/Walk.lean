/-
IncludeFlattener.Flattening.Walk — the walk through a file and everything
it includes.

A file is scanned line by line. An ordinary line joins the run of lines
that is open; a directive closes the run, and its target is read and
scanned in its place, unless it was visited before. A target is marked as
visited before it is read, so no file is read twice. Where an included file
ends, an empty line stands for the directive.

A walk is described by what it adds: reads, log events, visited paths,
skipped directives and chunks, each in the order in which it happens, and
the failure that ended it, if one did. What an included file adds therefore
stands in one piece in what the file around it adds, and the walk of a file
depends on what came before only through the visited paths and the reads,
which are arguments of `Keyword.scan?`.

A reader with ever new files can keep a walk from ending: `Keyword.scan?`
and `walk?` have no value then. `Flattening.Rules` gives the rules that a
walk follows, and `Flattening.Ending` says that it ends where only finitely
many paths can be read.
-/
import IncludeFlattener.Chunk
import IncludeFlattener.Flattening.Failure
import IncludeFlattener.Path.Collapse
namespace IncludeFlattener

/-- A directive that added nothing, because its target was there already. -/
structure SkippedInclude where
  /-- The file in which the directive stands. -/
  file : Path
  /-- Its line, counted from 1. -/
  line : Nat
  /-- Its target. -/
  target : Path
  deriving DecidableEq, Repr

/-- What is worth logging about a walk. -/
inductive Event where
  /-- A file was opened. -/
  | reading (path : Path)
  /-- A directive's target is taken in. -/
  | inlining (target file : Path) (line : Nat)
  /-- A directive's target was taken in before. -/
  | skipping (target file : Path) (line : Nat)
  deriving DecidableEq, Repr

/-- What a read gives to log. -/
def openings (path : Path) (answer : Answer) : List Event :=
  if answer.opened then [.reading path] else []

/-- The failure that a read means to a walk. -/
def Answer.failure? (path : Path) : Answer → Option Failure
  | .ok _ => none
  | .error e => some (.ofRead path e)

/-- What a walk adds, and what ended it. -/
structure Walk where
  /-- The paths that were read, whether they gave lines or not. -/
  reads : List Path := []
  events : List Event := []
  /-- The paths that were marked as visited. -/
  visited : List Path := []
  skipped : List SkippedInclude := []
  chunks : List Chunk := []
  failure : Option Failure := none
  deriving DecidableEq

namespace Walk

/-! ## 1. Pieces of a walk -/

/-- One walk after another. The first failure is the one that counts. -/
def append (a b : Walk) : Walk where
  reads := a.reads ++ b.reads
  events := a.events ++ b.events
  visited := a.visited ++ b.visited
  skipped := a.skipped ++ b.skipped
  chunks := a.chunks ++ b.chunks
  failure := a.failure.or b.failure

instance : Append Walk := ⟨append⟩

/-- The walk that only fails. -/
def failed (f : Failure) : Walk where
  failure := some f

/-- The walk that only closes an open run of lines. -/
def closed (run : Run) (file : Path) : Walk where
  chunks := run.close file

/-- Marking and reading the path at which a walk starts. -/
def begun (path : Path) (answer : Answer) : Walk where
  reads := [path]
  events := openings path answer
  visited := [Path.collapse path]
  failure := answer.failure? path

/-- Closing the run before a directive and passing over the directive. -/
def passed (run : Run) (file : Path) (n : Nat) (target : Path) : Walk where
  events := [.skipping target file n]
  skipped := [⟨file, n, target⟩]
  chunks := run.close file

/-- Closing the run before a directive, marking its target and reading
it. -/
def entered (run : Run) (file : Path) (n : Nat) (target : Path)
    (answer : Answer) : Walk where
  reads := [target]
  events := .inlining target file n :: openings target answer
  visited := [target]
  chunks := run.close file
  failure := answer.failure? target

section Projections

variable (a b : Walk)

@[simp] theorem reads_append : (a ++ b).reads = a.reads ++ b.reads := rfl
@[simp] theorem events_append : (a ++ b).events = a.events ++ b.events := rfl
@[simp] theorem visited_append :
    (a ++ b).visited = a.visited ++ b.visited := rfl
@[simp] theorem skipped_append :
    (a ++ b).skipped = a.skipped ++ b.skipped := rfl
@[simp] theorem chunks_append : (a ++ b).chunks = a.chunks ++ b.chunks := rfl
@[simp] theorem failure_append :
    (a ++ b).failure = a.failure.or b.failure := rfl

theorem append_assoc (c : Walk) : a ++ b ++ c = a ++ (b ++ c) := by
  show append (append a b) c = append a (append b c)
  simp [append, Option.or_assoc]

end Projections

end Walk

/-! ## 2. Scanning a file -/

/-- The walk through the rest of a file, of which `n` is the number of the
first line; `run` is open, the paths in `visited` were visited before, and
the ones in `earlier` were read before. -/
def Keyword.scan? (keyword : Keyword) (reader : Reader) (file : Path)
    (n : Nat) (run : Run) (lines : List Text) (visited earlier : List Path) :
    Option Walk :=
  match lines with
  | [] => some (.closed run file)
  | line :: rest =>
    match Directive.classify keyword line with
    | .ordinary =>
      keyword |>.scan? reader file (n + 1) (run.push n line) rest visited
        earlier
    | .malformed => some (.failed (.malformedDirective file n line))
    | .directive quoted =>
      let target := Path.join file quoted
      if target = Path.collapse file then some (.failed (.selfInclude file))
      else if target ∈ visited then do
        let after ← keyword |>.scan? reader file (n + 1) .empty rest visited
          earlier
        return .passed run file n target ++ after
      else
        match reader earlier target with
        | .error e => some (.entered run file n target (.error e))
        | .ok inside => do
          let inner ← keyword |>.scan? reader target 1 .empty inside
            (visited ++ [target]) (earlier ++ [target])
          let entered := .entered run file n target (.ok inside) ++ inner
          if inner.failure.isSome then return entered
          else
            let after ← keyword |>.scan? reader file (n + 1) (.standIn n) rest
              (visited ++ [target] ++ inner.visited)
              (earlier ++ [target] ++ inner.reads)
            return entered ++ after
partial_fixpoint

/-- The walk through the file at a path and everything that it includes. -/
def walk? (reader : Reader) (keyword : Keyword) (path : Path) : Option Walk :=
  match reader [] path with
  | .error e => some (.begun path (.error e))
  | .ok lines => do
    let inner ← keyword.scan? reader path 1 .empty lines [Path.collapse path]
      [path]
    return .begun path (.ok lines) ++ inner

end IncludeFlattener
