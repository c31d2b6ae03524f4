/-
IncludeFlattener.Proofs.Flattening.Nesting — how many reads a walk makes,
and how many files it has open at once.

Directives can name any number of paths, and folding is all that keeps a
file from being taken in again under a new spelling. Where `m` paths can be
read, a walk makes at most `m + 1` reads: the paths that it reads differ,
and only the last one may be refused (`ReadsEnd.length_le`).

`walkWithin?` is the walk under a limit on the files that are open at once.
A file is open from its read on, even if the read fails, until the scan of
its lines is over. Each file that is open has had its read, so a limit of as
many files as there are reads is enough (`Scans.scanWithin?_eq`).
-/
import IncludeFlattener.Proofs.Flattening.Reads
import IncludeFlattener.Source.Store
import Mathlib.Data.List.Dedup
import Mathlib.Data.List.Perm.Subperm
namespace IncludeFlattener

open Directive (classify Includes)

/-! ## 1. Walks under a limit -/

/-- The walk through the rest of a file, in which no more than `depth` files
may be open at once below it. There is none if a directive needs one more. -/
def Keyword.scanWithin? (keyword : Keyword) (reader : Reader) (depth : Nat)
    (file : Path) (n : Nat) (run : Run) (lines : List Text)
    (visited earlier : List Path) : Option Walk :=
  match lines with
  | [] => some (.closed run file)
  | line :: rest =>
    match classify keyword line with
    | .ordinary =>
      keyword |>.scanWithin? reader depth file (n + 1) (run.push n line) rest
        visited earlier
    | .malformed => some (.failed (.malformedDirective file n line))
    | .directive quoted =>
      let target := Path.join file quoted
      if target = Path.collapse file then some (.failed (.selfInclude file))
      else if target ∈ visited then do
        let after ← keyword |>.scanWithin? reader depth file (n + 1) .empty
          rest visited earlier
        return .passed run file n target ++ after
      else
        match depth with
        | 0 => none
        | depth + 1 =>
          match reader earlier target with
          | .error e => some (.entered run file n target (.error e))
          | .ok inside => do
            let inner ← keyword |>.scanWithin? reader depth target 1 .empty
              inside (visited ++ [target]) (earlier ++ [target])
            let entered := .entered run file n target (.ok inside) ++ inner
            if inner.failure.isSome then return entered
            else
              let after ← keyword |>.scanWithin? reader (depth + 1) file
                (n + 1) (.standIn n) rest
                (visited ++ [target] ++ inner.visited)
                (earlier ++ [target] ++ inner.reads)
              return entered ++ after
termination_by (depth, lines.length)

/-- The walk from a path, in which no more than `depth` files may be open at
once. -/
def walkWithin? (depth : Nat) (reader : Reader) (keyword : Keyword)
    (path : Path) : Option Walk :=
  match depth with
  | 0 => none
  | depth + 1 =>
    match reader [] path with
    | .error e => some (.begun path (.error e))
    | .ok lines => do
      let inner ← keyword.scanWithin? reader depth path 1 .empty lines
        [Path.collapse path] [path]
      return .begun path (.ok lines) ++ inner

/-- A walk is the same under a limit of as many files as it reads. -/
theorem Scans.scanWithin?_eq {reader : Reader} {keyword : Keyword}
    {file : Path} {n : Nat} {run : Run} {lines : List Text}
    {visited earlier : List Path} {w : Walk} {depth : Nat}
    (h : Scans reader keyword file n run lines visited earlier w)
    (hd : w.reads.length ≤ depth) :
    keyword.scanWithin? reader depth file n run lines visited earlier
      = some w := by
  induction h generalizing depth with
  | nil => rw [Keyword.scanWithin?]
  | ordinary hk _ ih => rw [Keyword.scanWithin?, hk, ← ih hd]
  | malformed hk => rw [Keyword.scanWithin?, hk]
  | selfInclude hk =>
    obtain ⟨quoted, hk, hj⟩ := hk
    rw [Keyword.scanWithin?, hk]
    simp only [hj, if_true]
  | skip hk hs hv _ ih =>
    obtain ⟨quoted, hk, rfl⟩ := hk
    have ih := @ih depth (by simpa using hd)
    rw [Keyword.scanWithin?, hk]
    simp only [hs, hv, if_true, if_false, ih]
    rfl
  | unread hk hs hv hr =>
    obtain ⟨quoted, hk, rfl⟩ := hk
    cases depth with
    | zero => cases hd
    | succ depth =>
      rw [Keyword.scanWithin?, hk]
      simp only [hs, hv, if_false, hr]
  | @innerFailed _ _ _ _ _ _ _ _ _ inner hk hs hv hr _ hf ih =>
    obtain ⟨quoted, hk, rfl⟩ := hk
    have hd : inner.reads.length + 1 ≤ depth := by simpa using hd
    cases depth with
    | zero => cases hd
    | succ depth =>
      have ih := @ih depth (Nat.le_of_succ_le_succ hd)
      rw [Keyword.scanWithin?, hk]
      simp only [hs, hv, if_false, hr, ih, Option.bind_eq_bind,
        Option.bind_some, Option.isSome_iff_ne_none.2 hf, if_true]
      rfl
  | @inline _ _ _ _ _ _ _ _ _ inner after hk hs hv hr _ hf _ ihi iha =>
    obtain ⟨quoted, hk, rfl⟩ := hk
    have hd : inner.reads.length + after.reads.length + 1 ≤ depth := by
      simpa using hd
    cases depth with
    | zero => cases hd
    | succ depth =>
      -- The included file is closed again where the rest is scanned.
      have ihi := @ihi depth (by omega)
      have iha := @iha (depth + 1) (by omega)
      rw [Keyword.scanWithin?, hk]
      simp only [hs, hv, if_false, hr, ihi, iha, Option.bind_eq_bind,
        Option.bind_some, hf, Option.isSome_none, Bool.false_eq_true]
      rfl

theorem walkWithin?_eq {reader : Reader} {keyword : Keyword} {top : Path}
    {w : Walk} {depth : Nat} (hw : walk? reader keyword top = some w)
    (hd : w.reads.length ≤ depth) :
    walkWithin? depth reader keyword top = some w := by
  obtain ⟨e, hr, rfl⟩ | ⟨lines, inner, hr, hi, rfl⟩ := walk?_eq_some_iff.1 hw
  · cases depth with
    | zero => cases hd
    | succ depth => rw [walkWithin?, hr]
  · have hd : inner.reads.length + 1 ≤ depth := by simpa using hd
    cases depth with
    | zero => cases hd
    | succ depth =>
      rw [walkWithin?, hr]
      simp only [hi.scanWithin?_eq (Nat.le_of_succ_le_succ hd)]
      rfl

/-- A file that includes another one needs two files open. -/
example : walkWithin? 1 (.steady twoFiles) hash ['.', '/', 'a'] = none := by
  cbv

/-! ## 2. Counting the reads -/

/-- Paths that were read with success, none of them twice, are no more than
the paths that can be read. -/
theorem Reader.GivesAll.length_le {reader : Reader}
    {earlier reads readable : List Path}
    (h : reader.GivesAll earlier reads) (hr : reader.ReadsOnly readable)
    (hn : reads.Nodup) : reads.length ≤ readable.dedup.length := by
  have hs : reads ⊆ readable.dedup := fun path hm =>
    List.mem_dedup.2 (h.subset hr hm)
  exact (hn.subperm hs).length_le

theorem ReadsEnd.length_le {reader : Reader} {earlier reads : List Path}
    {failure : Option Failure} {readable : List Path}
    (h : ReadsEnd reader earlier reads failure)
    (hr : reader.ReadsOnly readable) (hn : reads.Nodup) :
    reads.length ≤ readable.dedup.length + 1 := by
  cases h with
  | given hg _ => exact Nat.le_succ_of_le (hg.length_le hr hn)
  | refused h =>
    obtain ⟨before, rfl, hg, -⟩ := h
    rw [List.length_append, List.length_singleton]
    exact Nat.succ_le_succ (hg.length_le hr (List.nodup_append.1 hn).1)

/-! ## 3. Every walk ends within the limit -/

/-- A walk ends, makes at most `m + 1` reads, and has at most `m + 1` files
open at once. -/
def Reader.EndsWithin (reader : Reader) (m : Nat) : Prop :=
  ∀ (keyword : Keyword) (top : Path), ∃ w,
    walk? reader keyword top = some w ∧ w.reads.length ≤ m + 1 ∧
      walkWithin? (m + 1) reader keyword top = some w

theorem Reader.ReadsOnly.endsWithin {reader : Reader} {readable : List Path}
    (hr : reader.ReadsOnly readable) :
    reader.EndsWithin readable.dedup.length := by
  intro keyword top
  obtain ⟨w, hw⟩ := exists_walk?_eq hr keyword top
  have hlen := (readsEnd_of_walk hw).length_le hr (nodup_reads hw)
  exact ⟨w, hw, hlen, walkWithin?_eq hw hlen⟩

/-- The paths under which a store has files. -/
def Store.paths (s : Store) : List Path := s.entries.map (·.1)

/-- **A walk ends.** Where only `m` different paths can be read, every walk
ends, whatever its directives name. It makes at most `m + 1` reads and has at
most `m + 1` files open at once. A store is such a reader, with the paths of
its files. -/
theorem ends_within :
    (∀ (reader : Reader) (readable : List Path), reader.ReadsOnly readable →
      reader.EndsWithin readable.dedup.length) ∧
    ∀ s : Store, s.source.reader.EndsWithin s.paths.dedup.length := by
  refine ⟨fun reader readable hr => hr.endsWithin, fun s => ?_⟩
  have hr : s.source.reader.ReadsOnly s.paths :=
    fun _ _ _ h => Store.mem_of_read h
  exact hr.endsWithin

/-- Two files that include each other need no more than three reads. -/
theorem ends_within_twoFiles :
    (Reader.steady twoFiles).ReadsOnly [['.', '/', 'a'], ['b']] ∧
    (Reader.steady twoFiles).EndsWithin 2 := by
  have hr : (Reader.steady twoFiles).ReadsOnly [['.', '/', 'a'], ['b']] := by
    intro earlier path lines h
    unfold Reader.steady twoFiles at h
    split at h
    · simp
    · simp
    · cases h
  exact ⟨hr, ends_within.1 (.steady twoFiles) [['.', '/', 'a'], ['b']] hr⟩

end IncludeFlattener
