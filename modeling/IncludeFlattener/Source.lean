/-
IncludeFlattener.Source — where the lines of a file come from.

A reader answers a path with the lines of a file or with the reason why
there are none. Nothing keeps the files from changing between two reads, so
an answer may depend on the paths that were read before it. A source is the
ordinary kind of reader: it answers the same path always the same way, and
only finitely many paths can be read.

Finitely many readable paths are the promise on which flattening ends: each
file is read after its path was marked as visited, so every read that
succeeds leaves fewer readable paths unmarked (`unread_lt`), however many
spellings of paths the directives try.
-/
import IncludeFlattener.Path
namespace IncludeFlattener

/-- Why a file gave no lines. -/
inductive ReadFailure where
  /-- There is no such file. -/
  | missing
  /-- The file could not be opened. -/
  | unopened (reason : Text)
  /-- The file was opened, but its lines could not be read. -/
  | unreadable (reason : Text)
  deriving DecidableEq, Repr

/-- The answer to a read. -/
abbrev Answer := Except ReadFailure (List Text)

/-- Whether a file was opened, whatever became of its lines. -/
def Answer.opened : Answer → Bool
  | .ok _ => true
  | .error (.unreadable _) => true
  | .error _ => false

/-- The answer to the read of a path, after the paths that were read before
it. -/
abbrev Reader := List Path → Path → Answer

namespace Reader

/-- The reader that answers a path always the same way. -/
def steady (read : Path → Answer) : Reader := fun _ path => read path

/-- Only the paths in the list can be read. -/
def ReadsOnly (reader : Reader) (readable : List Path) : Prop :=
  ∀ earlier path lines, reader earlier path = .ok lines → path ∈ readable

end Reader

/-- A source of files. -/
structure Source where
  /-- The lines of the file at a path. -/
  read : Path → Answer
  /-- Some list holds every path that can be read. -/
  finite : ∃ readable : List Path,
    ∀ path lines, read path = .ok lines → path ∈ readable

/-- The source as a reader. -/
def Source.reader (s : Source) : Reader := .steady s.read

theorem Source.exists_readsOnly (s : Source) :
    ∃ readable, s.reader.ReadsOnly readable := by
  obtain ⟨readable, h⟩ := s.finite
  exact ⟨readable, fun _ path lines hr => h path lines hr⟩

/-! ## The paths not yet read -/

/-- Whether a path was marked can be decided. -/
instance (path : Path) (paths : List Path) : Decidable (path ∈ paths) :=
  inferInstance

/-- How many of the readable paths are not marked as visited. -/
def unread (readable visited : List Path) : Nat :=
  readable.countP (· ∉ visited)

/-- Marking more paths leaves no more of them unmarked. -/
theorem unread_le (readable visited more : List Path) :
    unread readable (visited ++ more) ≤ unread readable visited := by
  apply List.countP_mono_left
  intro path _ h
  simp only [decide_eq_true_eq, List.mem_append, not_or] at h ⊢
  exact h.1

/-- Marking a readable path that was not marked leaves fewer unmarked. -/
theorem unread_lt {readable visited : List Path} {path : Path}
    (hr : path ∈ readable) (hv : path ∉ visited) :
    unread readable (visited ++ [path]) < unread readable visited := by
  obtain ⟨before, rest, rfl⟩ := List.append_of_mem hr
  have h1 := unread_le before visited [path]
  have h2 := unread_le rest visited [path]
  simp only [unread, List.countP_append, List.countP_cons, List.mem_append,
    List.mem_singleton, or_true, not_true_eq_false, decide_false, hv,
    not_false_eq_true, decide_true, Bool.false_eq_true, if_false,
    if_true] at h1 h2 ⊢
  omega

end IncludeFlattener
