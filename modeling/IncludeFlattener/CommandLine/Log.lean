/-
IncludeFlattener.CommandLine.Log — what a run tells about itself.

A record has a level, says which part of the program it comes from, and
carries names and values. The records of a walk are those of its events, in
their order (`Record.ofEvent`); the account of a success adds one record for
each file that was taken in and then one for each directive that was passed
over (`accountOf`). Which records are written is up to a filter, and no record
depends on it.
-/
import IncludeFlattener.Flattening
namespace IncludeFlattener.CommandLine

/-- How much a record matters. -/
inductive Level where
  | error
  | warn
  | info
  | debug
  | trace
  deriving DecidableEq, Repr

namespace Level

/-- The levels, the one that matters most first. -/
def all : List Level := [.error, .warn, .info, .debug, .trace]

/-- The level as it stands in a record. -/
def label : Level → Text
  | .error => "ERROR".toList
  | .warn => "WARN".toList
  | .info => "INFO".toList
  | .debug => "DEBUG".toList
  | .trace => "TRACE".toList

/-- The level as it stands in a setting. -/
def name : Level → Text
  | .error => "error".toList
  | .warn => "warn".toList
  | .info => "info".toList
  | .debug => "debug".toList
  | .trace => "trace".toList

end Level

/-- A record of the log. -/
structure Record where
  level : Level
  /-- The part of the program that it comes from. -/
  origin : Text
  message : Text
  /-- Names and values. -/
  fields : List (Text × Text)
  deriving DecidableEq, Repr

namespace Record

/-- The record as a line. A line begins with the time at which the record was
made; this does not come from the files or the arguments, and is left out. -/
def line (r : Record) : Text :=
  r.level.label ++ ' ' :: (r.origin ++ ':' :: ' ' :: (r.message
    ++ r.fields.flatMap fun (name, value) => ' ' :: (name ++ '=' :: value)))

open Text.Quoted (quote)
open Text.Decimal (write)

/-- The record of an event. -/
def ofEvent : Event → Record
  | .reading path =>
    ⟨.trace, "glsl_include::include_provider".toList,
      "reading include".toList, [("path".toList, quote path)]⟩
  | .inlining target file line =>
    ⟨.debug, "glsl_include::resolver".toList, "inlining include".toList,
      [("include".toList, target), ("from".toList, quote file),
        ("line".toList, write line)]⟩
  | .skipping target file line =>
    ⟨.debug, "glsl_include::resolver".toList,
      "skipping already included file".toList,
      [("include".toList, target), ("from".toList, quote file),
        ("line".toList, write line)]⟩

/-- The record of a file that was taken in. -/
def inlined (file : Path) : Record :=
  ⟨.info, "glsl_include".toList, "inlined".toList, [("file".toList, file)]⟩

/-- The record of a directive that was passed over. -/
def skippedDuplicate (s : SkippedInclude) : Record :=
  ⟨.info, "glsl_include".toList, "skipped duplicate include".toList,
    [("file".toList, s.file), ("line".toList, write s.line),
      ("include".toList, s.target)]⟩

end Record

/-- The records of an account. -/
def accountOf (f : Flattened) : List Record :=
  f.visited.map .inlined ++ f.skipped.map .skippedDuplicate

/-- Which records are written. -/
abbrev Filter := Record → Bool

/-- The lines of the records that are written. -/
def logText (filter : Filter) (records : List Record) : Text :=
  Text.endLines ((records.filter filter).map Record.line)

end IncludeFlattener.CommandLine
