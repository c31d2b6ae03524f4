/-
IncludeFlattener.Proofs.Flattening.Conservation — a walk loses no line and
shows none twice.

`Reader.given` lists the files that a walk got from its reader, with their
lines. `Completes.perm_origins` counts: the places behind the output of a
complete walk, together with the directives that it passed over, are the
lines of those files, each once. Only the order differs, because a file is
left in its middle for the files that it includes.

The statement is about the rest of a file, with a run of lines open before
it. The lines of that run count as still to be shown, so every rule moves
lines from one side to the other and none disappears.
-/
import IncludeFlattener.Proofs.Chunk.Origin
import IncludeFlattener.Proofs.Flattening.Marks
namespace IncludeFlattener

/-! ## 1. The files that a reader gave -/

namespace Reader

/-- No line that the reader gives holds an LF. -/
def LfFree (reader : Reader) : Prop :=
  ∀ earlier path lines, reader earlier path = .ok lines → Text.LfFree lines

/-- The files that the reader gave in a row of reads, with their lines. -/
def given (reader : Reader) (earlier : List Path) :
    List Path → List (Path × List Text)
  | [] => []
  | path :: reads =>
    match reader earlier path with
    | .ok lines => (path, lines) :: reader.given (earlier ++ [path]) reads
    | .error _ => reader.given (earlier ++ [path]) reads

theorem given_cons_ok {reader : Reader} {earlier : List Path} {path : Path}
    {lines : List Text} (h : reader earlier path = .ok lines)
    (reads : List Path) :
    reader.given earlier (path :: reads)
      = (path, lines) :: reader.given (earlier ++ [path]) reads := by
  rw [given, h]

theorem given_append (reader : Reader) (earlier xs ys : List Path) :
    reader.given earlier (xs ++ ys)
      = reader.given earlier xs ++ reader.given (earlier ++ xs) ys := by
  induction xs generalizing earlier with
  | nil => simp [given]
  | cons path xs ih =>
    have ih := ih (earlier ++ [path])
    rw [List.append_assoc, List.singleton_append] at ih
    rw [List.cons_append, given, given]
    cases reader earlier path with
    | ok lines => simp [ih]
    | error e => simp [ih]

/-- An included file is given between what its reader gave before and
after. -/
theorem given_inline {reader : Reader} {earlier : List Path} {target : Path}
    {inside : List Text} (h : reader earlier target = .ok inside)
    (inner after : List Path) :
    reader.given earlier ([target] ++ inner ++ after)
      = (target, inside) :: reader.given (earlier ++ [target]) inner
        ++ reader.given (earlier ++ [target] ++ inner) after := by
  rw [List.append_assoc, List.singleton_append, given_cons_ok h,
    given_append, List.cons_append]

/-- The file at the top is given before all others. -/
theorem given_begun {reader : Reader} {top : Path} {lines : List Text}
    (h : reader [] top = .ok lines) (inner : Walk) :
    reader.given [] (Walk.begun top (.ok lines) ++ inner).reads
      = (top, lines) :: reader.given [top] inner.reads :=
  given_cons_ok h inner.reads

theorem map_fst_given_sublist (reader : Reader)
    (earlier reads : List Path) :
    ((reader.given earlier reads).map Prod.fst).Sublist reads := by
  induction reads generalizing earlier with
  | nil => exact .slnil
  | cons path reads ih =>
    have ih := ih (earlier ++ [path])
    rw [given]
    cases reader earlier path with
    | ok lines => exact ih.cons_cons path
    | error e => exact ih.cons path

end Reader

/-- All lines of these files. -/
def allPlaces (files : List (Path × List Text)) : List Origin :=
  files.flatMap fun file => places file.1 1 file.2.length

@[simp] theorem allPlaces_nil : allPlaces [] = [] := rfl

@[simp] theorem allPlaces_cons (path : Path) (lines : List Text)
    (files : List (Path × List Text)) :
    allPlaces ((path, lines) :: files)
      = places path 1 lines.length ++ allPlaces files := rfl

@[simp] theorem allPlaces_append (xs ys : List (Path × List Text)) :
    allPlaces (xs ++ ys) = allPlaces xs ++ allPlaces ys := by
  simp [allPlaces]

theorem fst_mem_of_mem_allPlaces {files : List (Path × List Text)}
    {o : Origin} (h : o ∈ allPlaces files) : o.1 ∈ files.map Prod.fst := by
  obtain ⟨file, hf, ho⟩ := List.mem_flatMap.1 h
  rw [(mem_places.1 ho).1]
  exact List.mem_map_of_mem hf

/-- Files with different paths have no line in common. -/
theorem nodup_allPlaces {files : List (Path × List Text)}
    (h : (files.map Prod.fst).Nodup) : (allPlaces files).Nodup := by
  induction files with
  | nil => exact List.nodup_nil
  | cons file files ih =>
    rw [List.map_cons, List.nodup_cons] at h
    rw [allPlaces_cons]
    refine List.nodup_append.2 ⟨nodup_places _ _ _, ih h.2, ?_⟩
    rintro o ho o' ho' rfl
    have hm := fst_mem_of_mem_allPlaces ho'
    rw [(mem_places.1 ho).1] at hm
    exact h.1 hm

/-! ## 2. Counting the lines of a walk -/

/-- The place of the directive. -/
def SkippedInclude.origin (s : SkippedInclude) : Origin := (s.file, s.line)

/-- A scan stands before line `n`: the open run ends there, and the lines
from there on hold no LF. -/
structure AtLine (n : Nat) (run : Run) (lines : List Text) : Prop where
  before : run.Before n
  lfFree : Text.LfFree lines

namespace AtLine

variable {n : Nat} {run : Run} {line : Text} {rest : List Text}

theorem push (h : AtLine n run (line :: rest)) :
    AtLine (n + 1) (run.push n line) rest := by
  obtain ⟨hl, hrest⟩ := List.forall_mem_cons.1 h.lfFree
  exact ⟨h.before.push hl, hrest⟩

/-- Behind a directive that is passed over. -/
theorem pass (h : AtLine n run (line :: rest)) :
    AtLine (n + 1) .empty rest :=
  ⟨Run.before_empty (Nat.succ_pos n), (List.forall_mem_cons.1 h.lfFree).2⟩

/-- Behind an included file. -/
theorem resume (h : AtLine n run (line :: rest)) :
    AtLine (n + 1) (.standIn n) rest :=
  ⟨Run.before_standIn h.before.pos, (List.forall_mem_cons.1 h.lfFree).2⟩

theorem enter {reader : Reader} {earlier : List Path} {path : Path}
    {lines : List Text} (hlf : reader.LfFree)
    (hr : reader earlier path = .ok lines) : AtLine 1 .empty lines :=
  ⟨Run.before_empty Nat.one_pos, hlf earlier path lines hr⟩

end AtLine

section Complete

variable {reader : Reader} {keyword : Keyword} {file : Path} {n : Nat}
  {run : Run} {lines : List Text} {visited earlier : List Path} {w : Walk}

/-- The chunks of a walk are made of whole lines. -/
theorem Completes.whole
    (h : Completes reader keyword file n run lines visited earlier w)
    (hlf : reader.LfFree) (hn : AtLine n run lines) :
    ∀ c ∈ w.chunks, c.Whole := by
  induction h with
  | nil => exact Run.whole_of_mem_close hn.before
  | ordinary _ _ ih => exact ih hn.push
  | skip _ _ _ _ ih =>
    intro c hm
    rcases List.mem_append.1 hm with hm | hm
    · exact Run.whole_of_mem_close hn.before c hm
    · exact ih hn.pass c hm
  | inline _ _ _ hi _ _ ihi iha =>
    intro c hm
    rw [Walk.chunks_append, Walk.chunks_append, List.mem_append,
      List.mem_append] at hm
    obtain (hm | hm) | hm := hm
    · exact Run.whole_of_mem_close hn.before c hm
    · exact ihi (.enter hlf hi) c hm
    · exact iha hn.resume c hm

/-- The lines shown and the directives passed over are the lines of the
open run, the rest of the file, and the files that were read. -/
theorem Completes.perm_origins
    (h : Completes reader keyword file n run lines visited earlier w)
    (hlf : reader.LfFree) (hn : AtLine n run lines) :
    (Chunk.origins w.chunks ++ w.skipped.map SkippedInclude.origin).Perm
      (places file (n - run.lines.length) run.lines.length
        ++ places file n lines.length
        ++ allPlaces (reader.given earlier w.reads)) := by
  rw [List.perm_iff_count]
  intro o
  induction h with
  | nil => simp [Run.origins_close hn.before, Reader.given]
  | @ordinary file n run line rest visited earlier after hk _ ih =>
    -- The line moves from the rest of the file into the run.
    have hp := places_append file (n - run.lines.length) run.lines.length 1
    rw [Nat.sub_add_cancel hn.before.length_le] at hp
    rw [ih hn.push, Run.lines_push, List.length_append, List.length_singleton,
      Nat.add_sub_add_right, ← hp, List.length_cons,
      places_succ file n rest.length, places_one]
    simp
  | @skip file n run line rest visited earlier target after hk _ _ _ ih =>
    have ih := ih hn.pass
    simp only [Walk.passed, Walk.chunks_append, Walk.skipped_append,
      Walk.reads_append, Chunk.origins_append, Run.origins_close hn.before,
      List.length_cons, places_succ file n, List.nil_append,
      List.map_append, List.map_cons, List.map_nil, List.count_append,
      List.count_cons, List.count_nil, SkippedInclude.origin, Run.empty,
      List.length_nil, places_zero] at ih ⊢
    omega
  | @inline file n run line rest visited earlier target inside inner after hk
      _ _ hi _ _ ihi iha =>
    have ihi := ihi (.enter hlf hi)
    have iha := iha hn.resume
    simp only [Walk.entered, Walk.chunks_append, Walk.skipped_append,
      Walk.reads_append, Chunk.origins_append, Run.origins_close hn.before,
      Reader.given_inline hi, allPlaces_cons, allPlaces_append,
      List.length_cons, places_succ file n, List.nil_append,
      List.map_append, List.count_append, List.count_cons, List.count_nil,
      Run.empty, Run.standIn, List.length_nil, places_zero,
      Nat.add_sub_cancel] at ihi iha ⊢
    omega

end Complete

/-! ## 3. From the top -/

section Top

variable {reader : Reader} {keyword : Keyword} {path : Path} {w : Walk}
  {f : Flattened} (hlf : reader.LfFree)
  (hw : walk? reader keyword path = some w) (hf : w.result = .ok f)

include hlf hw hf

theorem whole_of_result_eq_ok : ∀ c ∈ f.chunks, c.Whole := by
  obtain ⟨lines, inner, hr, hi, -, rfl⟩ := exists_completes hw hf
  exact hi.whole hlf (.enter hlf hr)

/-- The lines shown and the directives passed over are the lines of the
files that were read. -/
theorem perm_origins_of_result_eq_ok :
    (Chunk.origins f.chunks ++ f.skipped.map SkippedInclude.origin).Perm
      (allPlaces (reader.given [] w.reads)) := by
  obtain ⟨lines, inner, hr, hi, rfl, rfl⟩ := exists_completes hw hf
  rw [Reader.given_begun hr, allPlaces_cons]
  exact hi.perm_origins hlf (.enter hlf hr)

/-- None of them is counted twice. -/
theorem nodup_origins_of_result_eq_ok :
    (Chunk.origins f.chunks
      ++ f.skipped.map SkippedInclude.origin).Nodup := by
  rw [(perm_origins_of_result_eq_ok hlf hw hf).nodup_iff]
  exact nodup_allPlaces
    ((reader.map_fst_given_sublist [] w.reads).nodup (nodup_reads hw))

end Top

end IncludeFlattener
