/-
IncludeFlattener.Proofs.Flattening.Marks — which paths a walk marks and
reads.

Below the top, a path is marked when it is read and only then, so reads and
marks are one list (`Scans.reads_eq_visited`). Every path on it is folded,
and none was marked before (`Scans.nodup_visited`). These hold of every
walk, also of one that fails.
-/
import IncludeFlattener.Flattening
import IncludeFlattener.Proofs.Path.Normal
namespace IncludeFlattener

attribute [simp] Walk.failed Walk.closed Walk.begun Walk.passed Walk.entered

/-- A target is a folded path. -/
theorem Directive.Includes.collapse_eq {keyword : Keyword} {file : Path}
    {line : Text} {target : Path}
    (h : Directive.Includes keyword file line target) :
    Path.collapse target = target := by
  obtain ⟨quoted, -, rfl⟩ := h
  exact Path.collapse_join file quoted

section Scan

variable {reader : Reader} {keyword : Keyword} {file : Path} {n : Nat}
  {run : Run} {lines : List Text} {visited earlier : List Path} {w : Walk}

theorem Scans.reads_eq_visited
    (h : Scans reader keyword file n run lines visited earlier w) :
    w.reads = w.visited := by
  induction h with
  | nil => simp
  | ordinary _ _ ih => exact ih
  | malformed => simp
  | selfInclude => simp
  | skip _ _ _ _ ih => simp [ih]
  | unread => simp
  | innerFailed _ _ _ _ _ _ ih => simp [ih]
  | inline _ _ _ _ _ _ _ ihi iha => simp [ihi, iha]

/-- Every path that is marked is the folded path of a target. -/
theorem Scans.collapse_of_mem_visited
    (h : Scans reader keyword file n run lines visited earlier w) :
    ∀ key ∈ w.visited, Path.collapse key = key := by
  induction h with
  | nil => simp
  | ordinary _ _ ih => exact ih
  | malformed => simp
  | selfInclude => simp
  | skip _ _ _ _ ih => simpa using ih
  | unread hk => simpa using hk.collapse_eq
  | innerFailed hk _ _ _ _ _ ih => simpa using ⟨hk.collapse_eq, ih⟩
  | inline hk _ _ _ _ _ _ ihi iha =>
    intro key hm
    rw [Walk.visited_append, Walk.visited_append, List.mem_append,
      List.mem_append] at hm
    obtain (hm | hm) | hm := hm
    · rcases List.mem_singleton.1 hm with rfl
      exact hk.collapse_eq
    · exact ihi key hm
    · exact iha key hm

theorem nodup_marked {visited : List Path} {target : Path}
    (hn : visited.Nodup) (hv : target ∉ visited) :
    (visited ++ [target]).Nodup := by
  refine List.nodup_append.2 ⟨hn, by simp, ?_⟩
  intro key hk other ho
  rw [List.mem_singleton.1 ho]
  exact fun he => hv (he ▸ hk)

/-- No path is marked twice. -/
theorem Scans.nodup_visited
    (h : Scans reader keyword file n run lines visited earlier w)
    (hn : visited.Nodup) : (visited ++ w.visited).Nodup := by
  induction h with
  | nil => simpa using hn
  | ordinary _ _ ih => exact ih hn
  | malformed => simpa using hn
  | selfInclude => simpa using hn
  | skip _ _ _ _ ih => simpa using ih hn
  | unread _ _ hv => exact nodup_marked hn hv
  | innerFailed _ _ hv _ _ _ ih => simpa using ih (nodup_marked hn hv)
  | inline _ _ hv _ _ _ _ ihi iha =>
    simpa using iha (ihi (nodup_marked hn hv))

/-- A file whose key is marked is not taken in again. -/
theorem Scans.file_not_mem_visited
    (h : Scans reader keyword file n run lines visited earlier w)
    (hn : visited.Nodup) (hm : Path.collapse file ∈ visited) :
    file ∉ w.visited := by
  intro hf
  rw [h.collapse_of_mem_visited file hf] at hm
  exact (List.nodup_append.1 (h.nodup_visited hn)).2.2 file hm file hf rfl

end Scan

/-- No path is read twice. -/
theorem nodup_reads {reader : Reader} {keyword : Keyword} {path : Path}
    {w : Walk} (hw : walk? reader keyword path = some w) : w.reads.Nodup := by
  obtain ⟨e, -, rfl⟩ | ⟨lines, inner, -, hi, rfl⟩ := walk?_eq_some_iff.1 hw
  · simp
  · have hn := hi.nodup_visited (by simp)
    have hp := hi.file_not_mem_visited (by simp) (by simp)
    rw [Walk.reads_append, hi.reads_eq_visited]
    exact List.nodup_cons.2 ⟨hp, (List.nodup_cons.1 hn).2⟩

end IncludeFlattener
