/-
IncludeFlattener.Source.Store — files kept in memory.

A store finds a file by the exact spelling of its path, and the file put in
last under a path is the one that is found (`get?_insert`).
-/
import IncludeFlattener.Source
namespace IncludeFlattener

/-- Files by path, the latest first. -/
structure Store where
  entries : List (Path × Text)
  deriving Repr

namespace Store

/-- The store without files. -/
def empty : Store := ⟨[]⟩

/-- Puts a file into the store, in place of one with the same path. -/
def insert (s : Store) (path : Path) (contents : Text) : Store :=
  ⟨(path, contents) :: s.entries⟩

/-- The store with these files, of which a later one goes before an earlier
one with its path. -/
def ofList (files : List (Path × Text)) : Store :=
  files.foldl (fun s file => s.insert file.1 file.2) empty

/-- The contents of the file at a path. -/
def get? (s : Store) (path : Path) : Option Text := s.entries.lookup path

@[simp] theorem get?_empty (path : Path) : empty.get? path = none := rfl

theorem get?_insert (s : Store) (path other : Path) (contents : Text) :
    (s.insert path contents).get? other
      = if other = path then some contents else s.get? other := by
  by_cases h : other = path
  · simp [insert, get?, h]
  · have hb : (other == path) = false := by simpa using h
    simp [insert, get?, List.lookup_cons, hb, h]

/-- The answer of a store. -/
def read (s : Store) (path : Path) : Answer :=
  match s.get? path with
  | none => .error .missing
  | some contents => .ok contents.splitLines

theorem read_eq_ok_iff {s : Store} {path : Path} {lines : List Text} :
    s.read path = .ok lines ↔
      ∃ contents, s.get? path = some contents ∧
        contents.splitLines = lines := by
  unfold read
  cases s.get? path with
  | none => simp
  | some contents => simp

/-- A store has no other trouble with a file than to miss it. -/
theorem read_eq_error_iff {s : Store} {path : Path} {e : ReadFailure} :
    s.read path = .error e ↔ s.get? path = none ∧ e = .missing := by
  unfold read
  cases s.get? path with
  | none => simp [eq_comm]
  | some contents => simp

/-- Only the paths of its files can be read. -/
theorem mem_of_read {s : Store} {path : Path} {lines : List Text}
    (h : s.read path = .ok lines) : path ∈ s.entries.map (·.1) := by
  unfold read get? at h
  cases hl : s.entries.lookup path with
  | none => simp [hl] at h
  | some contents =>
    obtain ⟨l, r, hs, -⟩ := List.lookup_eq_some_iff.1 hl
    simp [hs]

/-- The store as a source. -/
def source (s : Store) : Source where
  read := s.read
  finite := ⟨s.entries.map (·.1), fun _ _ h => mem_of_read h⟩

end Store

end IncludeFlattener
