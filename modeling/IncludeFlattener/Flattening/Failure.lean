/-
IncludeFlattener.Flattening.Failure — why a text could not be flattened.

Each cause carries its evidence: the file in which it was met, and for a
directive its line. The wording stands in `message` alone; names and lines
of text appear in it in quotes, so that a message is one line.
-/
import IncludeFlattener.Directive
import IncludeFlattener.Source
import IncludeFlattener.Text.Decimal
import IncludeFlattener.Text.Quoted
namespace IncludeFlattener

open Text.Quoted (quote)

/-- Why flattening ended early. -/
inductive Failure where
  /-- There is no such file. -/
  | missing (file : Path)
  /-- The file is there, but could not be opened or read. -/
  | unreadable (file : Path) (reason : Text)
  /-- A directive does not name a path in quotes. -/
  | malformedDirective (file : Path) (line : Nat) (text : Text)
  /-- A directive names the file in which it stands. -/
  | selfInclude (file : Path)
  deriving DecidableEq, Repr

namespace Failure

/-- A file's own failure as a failure to flatten. -/
def ofRead (file : Path) : ReadFailure → Failure
  | .missing => .missing file
  | .unopened reason => .unreadable file reason
  | .unreadable reason => .unreadable file reason

/-- The file in which the failure was met. -/
def file : Failure → Path
  | .missing file => file
  | .unreadable file _ => file
  | .malformedDirective file _ _ => file
  | .selfInclude file => file

/-- The failure in words. -/
def message : Failure → Text
  | .missing file => "file ".toList ++ quote file ++ " does not exist".toList
  | .unreadable file reason =>
    "unable to read file ".toList ++ quote file ++ ": ".toList ++ reason
  | .malformedDirective file line text =>
    "malformed include directive: ".toList ++ quote file ++ " (".toList
      ++ Text.Decimal.write line ++ "): ".toList ++ quote text
  | .selfInclude file =>
    "file ".toList ++ quote file ++ " tried to include itself".toList

/-- What lies behind a failure, where there is more to say. -/
def cause? : Failure → Option Text
  | .unreadable _ reason => some reason
  | _ => none

end Failure

/-- Why there is no keyword without characters. -/
def Keyword.emptyMessage : Text := "include keyword must not be empty".toList

end IncludeFlattener
