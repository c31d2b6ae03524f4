/-
IncludeFlattener.Proofs.Flattening.Reads — what a walk reads, and what
comes of each read.

* `reads_once`: no file is read twice, under whatever spelling; the first
  read is that of the path at the top, as it is spelled, and every later one
  is that of a folded path.
* The same theorem says what the reads tell about the end. Where a text
  comes out, the files were read in the order in which they were taken in.
  Where a file could not be read, that read was the last one. Where a
  directive was at fault, every read gave lines.

The second part is an induction on the rules, for failing walks as well
(`Scans.readsEnd`): a failed read ends the walk at once, so no read comes
behind it, and all before it gave lines. A reader may answer a path
differently at different times; each answer is taken after exactly the
reads that came before it.
-/
import IncludeFlattener.Proofs.Flattening.LineMap
namespace IncludeFlattener

open Directive (classify Includes)

/-! ## 1. How a row of reads ends -/

/-- Every one of the reads gave lines. -/
def Reader.GivesAll (reader : Reader) : List Path → List Path → Prop
  | _, [] => True
  | earlier, path :: reads =>
    (∃ lines, reader earlier path = .ok lines) ∧
      reader.GivesAll (earlier ++ [path]) reads

namespace Reader

variable {reader : Reader} {earlier xs ys : List Path} {path : Path}

@[simp] theorem givesAll_nil : reader.GivesAll earlier [] := trivial

theorem givesAll_singleton {lines : List Text}
    (h : reader earlier path = .ok lines) :
    reader.GivesAll earlier [path] :=
  ⟨⟨lines, h⟩, trivial⟩

theorem GivesAll.append (hx : reader.GivesAll earlier xs)
    (hy : reader.GivesAll (earlier ++ xs) ys) :
    reader.GivesAll earlier (xs ++ ys) := by
  induction xs generalizing earlier with
  | nil => simpa using hy
  | cons path xs ih =>
    refine ⟨hx.1, ih hx.2 ?_⟩
    rwa [List.append_assoc, List.singleton_append]

/-- A path that was read with success is one that can be read. -/
theorem GivesAll.subset {readable : List Path}
    (h : reader.GivesAll earlier xs) (hr : reader.ReadsOnly readable) :
    xs ⊆ readable := by
  induction xs generalizing earlier with
  | nil => exact List.nil_subset _
  | cons path xs ih =>
    obtain ⟨⟨lines, hl⟩, h⟩ := h
    exact List.cons_subset.2 ⟨hr earlier path lines hl, ih h⟩

end Reader

/-- The last of the reads is that of this path, and it was refused; every
read before it gave lines. -/
def Reader.RefusesLast (reader : Reader) (earlier reads : List Path)
    (path : Path) (e : ReadFailure) : Prop :=
  ∃ before, reads = before ++ [path] ∧ reader.GivesAll earlier before ∧
    reader (earlier ++ before) path = .error e

/-- How a row of reads ends, and the walk with it: a failure to read stems
from the last read, and no other read failed. -/
inductive ReadsEnd (reader : Reader) (earlier reads : List Path) :
    Option Failure → Prop where
  | given {failure : Option Failure} (hg : reader.GivesAll earlier reads)
      (hf : ∀ path e, failure ≠ some (.ofRead path e)) :
      ReadsEnd reader earlier reads failure
  | refused {path : Path} {e : ReadFailure}
      (h : reader.RefusesLast earlier reads path e) :
      ReadsEnd reader earlier reads (some (.ofRead path e))

namespace ReadsEnd

variable {reader : Reader} {earlier reads : List Path}
  {failure : Option Failure}

theorem of_givesAll (h : reader.GivesAll earlier reads) :
    ReadsEnd reader earlier reads none :=
  .given h (by simp)

theorem of_first {path : Path} {e : ReadFailure}
    (h : reader earlier path = .error e) :
    ReadsEnd reader earlier [path] (some (.ofRead path e)) :=
  .refused ⟨[], rfl, trivial, by rwa [List.append_nil]⟩

/-- Reads that gave lines may come before. -/
theorem prepend {first : List Path} (hx : reader.GivesAll earlier first)
    (h : ReadsEnd reader (earlier ++ first) reads failure) :
    ReadsEnd reader earlier (first ++ reads) failure := by
  cases h with
  | given hg hf => exact .given (hx.append hg) hf
  | refused h =>
    obtain ⟨before, rfl, hg, hr⟩ := h
    rw [List.append_assoc] at hr
    exact .refused ⟨first ++ before, (List.append_assoc _ _ _).symm,
      hx.append hg, hr⟩

theorem givesAll (h : ReadsEnd reader earlier reads none) :
    reader.GivesAll earlier reads := by
  cases h with
  | given hg _ => exact hg

end ReadsEnd

section Scan

variable {reader : Reader} {keyword : Keyword} {file : Path} {n : Nat}
  {run : Run} {lines : List Text} {visited earlier : List Path} {w : Walk}

theorem Scans.readsEnd
    (h : Scans reader keyword file n run lines visited earlier w) :
    ReadsEnd reader earlier w.reads w.failure := by
  induction h with
  | nil => exact .of_givesAll trivial
  | ordinary _ _ ih => exact ih
  | malformed =>
    refine .given trivial ?_
    rintro path ⟨⟩ ⟨⟩
  | selfInclude =>
    refine .given trivial ?_
    rintro path ⟨⟩ ⟨⟩
  | skip _ _ _ _ ih => simpa using ih
  | unread _ _ _ hr => exact .of_first hr
  | innerFailed _ _ _ hr _ _ ih =>
    exact ih.prepend (Reader.givesAll_singleton hr)
  | inline _ _ _ hr _ hf _ ihi iha =>
    rw [hf] at ihi
    have hg := (Reader.givesAll_singleton hr).append ihi.givesAll
    rw [List.append_assoc] at iha
    simpa [Answer.failure?, hf] using iha.prepend hg

/-- A failure names the file itself or one that was read on the way. -/
theorem Scans.file_mem_reads
    (h : Scans reader keyword file n run lines visited earlier w)
    {e : Failure} (hf : w.failure = some e) : e.file ∈ file :: w.reads := by
  induction h with
  | nil => cases hf
  | ordinary _ _ ih => exact ih hf
  | malformed =>
    cases hf
    exact List.mem_cons_self
  | selfInclude =>
    cases hf
    exact List.mem_cons_self
  | skip _ _ _ _ ih => simpa using ih hf
  | @unread _ _ _ _ _ _ _ _ e =>
    cases hf
    cases e <;> simp [Failure.ofRead, Failure.file]
  | innerFailed _ _ _ _ _ _ ih =>
    exact List.mem_cons_of_mem _ (ih hf)
  | inline _ _ _ _ _ hn _ _ iha =>
    have hf := iha (by simpa [Answer.failure?, hn] using hf)
    rcases List.mem_cons.1 hf with he | hm
    · exact List.mem_cons.2 (.inl he)
    · exact List.mem_cons_of_mem _ (List.mem_append_right _ hm)

end Scan

/-! ## 2. From the top -/

/-- What the reads of a walk have to do with its failure. -/
def Failure.ReadsTell (reader : Reader) (reads : List Path) : Failure → Prop
  | .missing file => reader.RefusesLast [] reads file .missing
  | .unreadable file reason =>
    reader.RefusesLast [] reads file (.unopened reason) ∨
      reader.RefusesLast [] reads file (.unreadable reason)
  | .malformedDirective file _ _ => file ∈ reads ∧ reader.GivesAll [] reads
  | .selfInclude file => file ∈ reads ∧ reader.GivesAll [] reads

theorem ReadsEnd.readsTell {reader : Reader} {reads : List Path}
    {e : Failure} (h : ReadsEnd reader [] reads (some e))
    (hm : e.file ∈ reads) : e.ReadsTell reader reads := by
  generalize hs : some e = failure at h
  cases h with
  | given hg hf =>
    subst hs
    cases e with
    | missing file => exact absurd rfl (hf file .missing)
    | unreadable file reason => exact absurd rfl (hf file (.unopened reason))
    | malformedDirective => exact ⟨hm, hg⟩
    | selfInclude => exact ⟨hm, hg⟩
  | @refused path reason h =>
    cases hs
    cases reason with
    | missing => exact h
    | unopened => exact .inl h
    | unreadable => exact .inr h

section Top

variable {reader : Reader} {keyword : Keyword} {top : Path} {w : Walk}
  (hw : walk? reader keyword top = some w)

include hw

theorem readsEnd_of_walk : ReadsEnd reader [] w.reads w.failure := by
  obtain ⟨e, hr, rfl⟩ | ⟨lines, inner, hr, hi, rfl⟩ := walk?_eq_some_iff.1 hw
  · exact .of_first hr
  · exact hi.readsEnd.prepend (Reader.givesAll_singleton hr)

theorem file_mem_reads {e : Failure} (he : w.failure = some e) :
    e.file ∈ w.reads := by
  obtain ⟨e', hr, rfl⟩ | ⟨lines, inner, hr, hi, rfl⟩ := walk?_eq_some_iff.1 hw
  · cases he
    cases e' <;> simp [Failure.ofRead, Failure.file]
  · exact hi.file_mem_reads he

/-- Below the top, the reads are the marks, and each is a folded path that
the one at the top does not fold to. -/
theorem exists_reads_eq_cons : ∃ later, w.reads = top :: later ∧
    w.visited = Path.collapse top :: later ∧
    (Path.collapse top :: later).Nodup ∧
    ∀ path ∈ later, Path.collapse path = path := by
  obtain ⟨e, -, rfl⟩ | ⟨lines, inner, -, hi, rfl⟩ := walk?_eq_some_iff.1 hw
  · exact ⟨[], rfl, rfl, by simp, by simp⟩
  · refine ⟨inner.visited, ?_, rfl, hi.nodup_visited (by simp),
      hi.collapse_of_mem_visited⟩
    rw [← hi.reads_eq_visited]
    rfl

end Top

/-- **Each file is read at most once.** No path is read twice and no two
paths that are read fold to one; the first is the path at the top, and the
later ones are folded and differ from its folded path. Where a text comes
out, they are its files, and every read gave lines. Where none does, the
reads tell why: a failure to read is that of the last read and of no other,
and where a directive is at fault, its file was read and no read failed. -/
theorem reads_once {reader : Reader} {keyword : Keyword} {top : Path}
    {w : Walk} (hw : walk? reader keyword top = some w) :
    w.reads.Nodup ∧ (w.reads.map Path.collapse).Nodup ∧
    (∃ later, w.reads = top :: later ∧
      (∀ path ∈ later, Path.collapse path = path ∧
        path ≠ Path.collapse top) ∧
      ∀ f, w.result = .ok f → f.visited = Path.collapse top :: later) ∧
    (∀ f, w.result = .ok f → reader.GivesAll [] w.reads) ∧
    ∀ e, w.result = .error e → e.ReadsTell reader w.reads := by
  obtain ⟨later, hreads, hvisited, hn, hc⟩ := exists_reads_eq_cons hw
  have hmap : later.map Path.collapse = later :=
    (List.map_congr_left hc).trans (List.map_id _)
  have hkeys : (w.reads.map Path.collapse).Nodup := by
    rw [hreads, List.map_cons, hmap]
    exact hn
  refine ⟨hkeys.of_map _, hkeys, ⟨later, hreads, ?_, ?_⟩, ?_, ?_⟩
  · rintro path hm
    refine ⟨hc path hm, ?_⟩
    rintro rfl
    exact (List.nodup_cons.1 hn).1 hm
  · intro f hf
    obtain ⟨-, rfl⟩ := Walk.result_eq_ok_iff.1 hf
    exact hvisited
  · intro f hf
    have h := readsEnd_of_walk hw
    rw [(Walk.result_eq_ok_iff.1 hf).1] at h
    exact h.givesAll
  · intro e he
    have he := Walk.result_eq_error_iff.1 he
    have h := readsEnd_of_walk hw
    rw [he] at h
    exact h.readsTell (file_mem_reads hw he)

/-! ## A file that is not there -/

/-- The file `./a` includes `b` under another spelling, and `b` includes `c`,
which is missing. -/
def lostFile : Path → Answer
  | ['.', '/', 'a'] => .ok [['#', '"', 'x', '/', '.', '.', '/', 'b', '"']]
  | ['b'] => .ok [['y'], ['#', '"', 'c', '"'], ['#', '"', 'd', '"']]
  | _ => .error .missing

/-- The walk from `./a`. -/
def lostFileWalk : Walk where
  reads := [['.', '/', 'a'], ['b'], ['c']]
  events := [.reading ['.', '/', 'a'], .inlining ['b'] ['.', '/', 'a'] 1,
    .reading ['b'], .inlining ['c'] ['b'] 2]
  visited := [['a'], ['b'], ['c']]
  chunks := [⟨['y', '\n'], ['b'], 0⟩]
  failure := some (.missing ['c'])

/-- The read of `c` is the last one, and the only one that failed. -/
theorem reads_once_lostFile :
    walk? (.steady lostFile) hash ['.', '/', 'a'] = some lostFileWalk ∧
    (lostFileWalk.reads.map Path.collapse).Nodup ∧
    (Reader.steady lostFile).RefusesLast [] lostFileWalk.reads ['c']
      .missing := by
  have hw : walk? (.steady lostFile) hash ['.', '/', 'a']
      = some lostFileWalk := by cbv
  obtain ⟨-, hkeys, -, -, htell⟩ := reads_once hw
  exact ⟨hw, hkeys, htell (.missing ['c']) rfl⟩

end IncludeFlattener
