/-
IncludeFlattener.Flattening.Ending — a walk ends where only finitely many
paths can be read.

Two things go down from one line to the next: a file that is taken in was
readable and not marked before, so there are fewer unread files inside it;
and within a file the lines get fewer. `exists_scans` is the induction on
both. It gives a source its walk, with no bound on its length.
-/
import IncludeFlattener.Flattening.Rules
namespace IncludeFlattener

open Directive (classify)

/-- Fewer unread files, or as many and fewer lines. -/
theorem lex_of_le_of_lt {a a' b b' : Nat} (h : a ≤ a') (h' : b < b') :
    Prod.Lex (· < ·) (· < ·) (a, b) (a', b') := by
  rcases Nat.lt_or_eq_of_le h with h | rfl
  · exact Prod.Lex.left _ _ h
  · exact Prod.Lex.right _ h'

theorem exists_scans {reader : Reader} {readable : List Path}
    (hr : reader.ReadsOnly readable) (keyword : Keyword) (file : Path)
    (n : Nat) (run : Run) (lines : List Text) (visited earlier : List Path) :
    ∃ w, Scans reader keyword file n run lines visited earlier w :=
  match lines with
  | [] => ⟨_, .nil⟩
  | line :: rest => by
      cases hk : classify keyword line with
      | ordinary =>
        obtain ⟨after, ha⟩ := exists_scans hr keyword file (n + 1)
          (run.push n line) rest visited earlier
        exact ⟨after, .ordinary hk ha⟩
      | malformed => exact ⟨_, .malformed hk⟩
      | directive quoted =>
        have hk : Directive.Includes keyword file line _ := ⟨quoted, hk, rfl⟩
        by_cases hs : Path.join file quoted = Path.collapse file
        · exact ⟨_, .selfInclude (hs ▸ hk)⟩
        by_cases hv : Path.join file quoted ∈ visited
        · obtain ⟨after, ha⟩ := exists_scans hr keyword file (n + 1) .empty
            rest visited earlier
          exact ⟨_, .skip hk hs hv ha⟩
        cases hi : reader earlier (Path.join file quoted) with
        | error e => exact ⟨_, .unread hk hs hv hi⟩
        | ok inside =>
          have := unread_lt (hr _ _ _ hi) hv
          obtain ⟨inner, hin⟩ := exists_scans hr keyword
            (Path.join file quoted) 1 .empty inside
            (visited ++ [Path.join file quoted])
            (earlier ++ [Path.join file quoted])
          by_cases hf : inner.failure = none
          · obtain ⟨after, ha⟩ := exists_scans hr keyword file (n + 1)
              (.standIn n) rest
              (visited ++ [Path.join file quoted] ++ inner.visited)
              (earlier ++ [Path.join file quoted] ++ inner.reads)
            exact ⟨_, .inline hk hs hv hi hin hf ha⟩
          · exact ⟨_, .innerFailed hk hs hv hi hin hf⟩
termination_by (unread readable visited, lines.length)
decreasing_by
  · exact lex_of_le_of_lt (Nat.le_refl _) (Nat.lt_succ_self _)
  · exact lex_of_le_of_lt (Nat.le_refl _) (Nat.lt_succ_self _)
  · exact Prod.Lex.left _ _ this
  · exact lex_of_le_of_lt
      (Nat.le_trans (unread_le _ _ _) (unread_le _ _ _))
      (Nat.lt_succ_self _)

/-- A walk ends, whatever the directives are, if only finitely many paths
can be read. -/
theorem exists_walk?_eq {reader : Reader} {readable : List Path}
    (hr : reader.ReadsOnly readable) (keyword : Keyword) (path : Path) :
    ∃ w, walk? reader keyword path = some w := by
  cases ha : reader [] path with
  | error e => exact ⟨_, walk?_eq_some_iff.2 (.inl ⟨e, ha, rfl⟩)⟩
  | ok lines =>
    obtain ⟨inner, hi⟩ := exists_scans hr keyword path 1 .empty lines
      [Path.collapse path] [path]
    exact ⟨_, walk?_eq_some_iff.2 (.inr ⟨lines, inner, ha, hi, rfl⟩)⟩

theorem Source.isSome_walk? (source : Source) (keyword : Keyword)
    (path : Path) : (walk? source.reader keyword path).isSome := by
  obtain ⟨readable, hr⟩ := source.exists_readsOnly
  obtain ⟨w, hw⟩ := exists_walk?_eq hr keyword path
  rw [hw, Option.isSome_some]

/-- The walk through the files of a source. -/
def walk (source : Source) (keyword : Keyword) (path : Path) : Walk :=
  (walk? source.reader keyword path).get (source.isSome_walk? keyword path)

theorem walk?_eq_some_walk (source : Source) (keyword : Keyword)
    (path : Path) :
    walk? source.reader keyword path = some (walk source keyword path) :=
  (Option.some_get _).symm

end IncludeFlattener
