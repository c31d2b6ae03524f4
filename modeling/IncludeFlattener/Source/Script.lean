/-
IncludeFlattener.Source.Script — a store some of whose answers are fixed.

A path with a fixed answer gets that answer, whatever the store holds; the
others are answered by the store. Fixing an answer hides the stored file,
and releasing the path uncovers it again.
-/
import IncludeFlattener.Source.Store
namespace IncludeFlattener

/-- A store with fixed answers, the latest first. -/
structure Script where
  store : Store
  fixed : List (Path × Answer)

namespace Script

/-- No files and no fixed answers. -/
def empty : Script := ⟨.empty, []⟩

/-- Puts a file into the store. -/
def insert (s : Script) (path : Path) (contents : Text) : Script :=
  { s with store := s.store.insert path contents }

/-- Fixes the answer to a path. -/
def fix (s : Script) (path : Path) (answer : Answer) : Script :=
  { s with fixed := (path, answer) :: s.fixed }

/-- Leaves the answer to a path to the store. -/
def release (s : Script) (path : Path) : Script :=
  { s with fixed := s.fixed.filter (·.1 ≠ path) }

/-- The answer of a script. -/
def read (s : Script) (path : Path) : Answer :=
  match s.fixed.lookup path with
  | some answer => answer
  | none => s.store.read path

/-- The script as a source. -/
def source (s : Script) : Source where
  read := s.read
  finite := by
    refine ⟨s.fixed.map (·.1) ++ s.store.entries.map (·.1), ?_⟩
    intro path lines h
    unfold read at h
    cases hl : s.fixed.lookup path with
    | none =>
      rw [hl] at h
      exact List.mem_append_right _ (Store.mem_of_read h)
    | some answer =>
      obtain ⟨l, r, hs, -⟩ := List.lookup_eq_some_iff.1 hl
      simp [hs]

/-! ## What one change does to the answers -/

theorem lookup_filter_ne {β : Type} (path other : Path) :
    ∀ l : List (Path × β), (l.filter (·.1 ≠ path)).lookup other
      = if other = path then none else l.lookup other
  | [] => by simp
  | (k, v) :: l => by
      have ih := lookup_filter_ne path other l
      by_cases hk : k = path
      · subst hk
        rw [List.filter_cons_of_neg (by simp), ih, List.lookup_cons]
        by_cases ho : other = k
        · simp [ho]
        · have hb : (other == k) = false := by simpa using ho
          simp [ho, hb]
      · rw [List.filter_cons_of_pos (by simpa using hk), List.lookup_cons,
          List.lookup_cons, ih]
        by_cases ho : other = path
        · subst ho
          have hb : (other == k) = false := by simpa using Ne.symm hk
          simp [hb]
        · simp [ho]

theorem read_fix (s : Script) (path other : Path) (answer : Answer) :
    (s.fix path answer).read other
      = if other = path then answer else s.read other := by
  by_cases h : other = path
  · simp [fix, read, h]
  · have hb : (other == path) = false := by simpa using h
    simp [fix, read, List.lookup_cons, hb, h]

theorem read_release (s : Script) (path other : Path) :
    (s.release path).read other
      = if other = path then s.store.read other else s.read other := by
  have hl := lookup_filter_ne path other s.fixed
  by_cases h : other = path
  · rw [if_pos h] at hl ⊢
    simp only [read, release]
    rw [hl]
  · rw [if_neg h] at hl ⊢
    simp only [read, release]
    rw [hl]

end Script

end IncludeFlattener
