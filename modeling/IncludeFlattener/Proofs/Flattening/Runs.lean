/-
IncludeFlattener.Proofs.Flattening.Runs — a chunk is a run of ordinary lines
that goes as far as it can.

A chunk begins where copying begins or begins again: at the first line of a
file, behind a directive that was passed over, or at a directive whose target
was taken in, which is shown as an empty line (`Begins`). It ends at the next
directive or with the file. `IsMaximal` says this of the chunk and the lines
of its file.

Two things can close a run, a directive and the end of a file, and two things
can open one, the first line that is pushed and the line that stands for an
included file. `Run.Leads` is what holds of the open run before a line,
whichever it was; each kind of line keeps it, and closing a run that has it
gives a maximal chunk (`Run.Leads.areMaximal`).
-/
import IncludeFlattener.Proofs.Flattening.LineMap
namespace IncludeFlattener

open Directive (Includes)

/-! ## 1. Where copying begins -/

section Begins

variable (keyword : Keyword) (events : List Event)
  (skipped : List SkippedInclude) (file : Path) (lines : List Text)

/-- Nothing is copied directly before line `l`: it is the first line, or the
line before it is a directive that was passed over. -/
def Fresh (l : Nat) : Prop :=
  l = 1 ∨ ∃ line target, lines[l - 1 - 1]? = some line ∧
    Includes keyword file line target ∧ ⟨file, l - 1, target⟩ ∈ skipped

/-- Copying begins at line `l`, with this text. -/
inductive Begins (l : Nat) : Text → Prop where
  /-- At an ordinary line. -/
  | copy {line : Text} (hl : lines[l - 1]? = some line)
      (hk : ¬ keyword.text <+: line)
      (hf : Fresh keyword skipped file lines l) : Begins l line
  /-- At a directive whose target was taken in. -/
  | standIn {line : Text} {target : Path} (hl : lines[l - 1]? = some line)
      (hk : Includes keyword file line target)
      (he : .inlining target file l ∈ events) : Begins l []

/-- Line `l` is there and is ordinary. -/
def IsOrdinary (l : Nat) : Prop :=
  ∃ line, lines[l - 1]? = some line ∧ ¬ keyword.text <+: line

/-- If line `l` is there, it is a directive. -/
def EndsBefore (l : Nat) : Prop :=
  ∀ line, lines[l - 1]? = some line →
    ∃ target, Includes keyword file line target

end Begins

/-- A chunk shows lines of a file from where copying begins to the next
directive or the end of the file. -/
structure IsMaximal (keyword : Keyword) (events : List Event)
    (skipped : List SkippedInclude) (lines : List Text) (c : Chunk) :
    Prop where
  whole : c.source ≠ [] ∧ c.source.getLast? = some '\n'
  begins : ∃ text, c.source.lfLines.head? = some text ∧
    Begins keyword events skipped c.file lines (c.lineOffset + 1) text
  ordinary : ∀ l, c.lineOffset + 1 < l → l < c.lineOffset + 1 + c.lineCount →
    IsOrdinary keyword lines l
  ends : EndsBefore keyword c.file lines (c.lineOffset + 1 + c.lineCount)

theorem Text.getLast?_endLines {lines : List Text} (h : lines ≠ []) :
    (endLines lines).getLast? = some '\n' := by
  obtain ⟨upper, last, rfl⟩ := List.eq_nil_or_concat lines |>.resolve_left h
  simp [endLines_append]

section IsMaximal

variable {keyword : Keyword} {events : List Event}
  {skipped : List SkippedInclude} {lines : List Text} {c : Chunk}

theorem IsOrdinary.le_length {l : Nat} (h : IsOrdinary keyword lines l)
    (hl : 0 < l) : l ≤ lines.length := by
  obtain ⟨line, hl, -⟩ := h
  have := (List.getElem?_eq_some_iff.1 hl).1
  omega

theorem IsMaximal.lineCount_pos
    (h : IsMaximal keyword events skipped lines c) : 0 < c.lineCount :=
  List.count_pos_iff.2 (List.mem_of_mem_getLast? h.whole.2)

theorem IsMaximal.le_length
    (h : IsMaximal keyword events skipped lines c) :
    c.lineOffset + c.lineCount ≤ lines.length := by
  by_cases hc : c.lineCount = 1
  · obtain ⟨text, -, hb⟩ := h.begins
    obtain ⟨line, hl⟩ : ∃ line, lines[c.lineOffset + 1 - 1]? = some line := by
      cases hb with
      | copy hl _ _ => exact ⟨_, hl⟩
      | standIn hl _ _ => exact ⟨_, hl⟩
    have := (List.getElem?_eq_some_iff.1 hl).1
    omega
  · have hpos := h.lineCount_pos
    exact (h.ordinary (c.lineOffset + c.lineCount) (by omega)
      (by omega)).le_length (by omega)

end IsMaximal

/-- Each of the chunks is a maximal run of the lines of one of the files. -/
def AreMaximal (keyword : Keyword) (events : List Event)
    (skipped : List SkippedInclude) (files : List (Path × List Text))
    (chunks : List Chunk) : Prop :=
  ∀ c ∈ chunks, ∃ lines, (c.file, lines) ∈ files ∧
    IsMaximal keyword events skipped lines c

section AreMaximal

variable {keyword : Keyword} {events : List Event}
  {skipped : List SkippedInclude} {files more : List (Path × List Text)}
  {xs ys : List Chunk}

theorem AreMaximal.append
    (hx : AreMaximal keyword events skipped files xs)
    (hy : AreMaximal keyword events skipped files ys) :
    AreMaximal keyword events skipped files (xs ++ ys) := by
  intro c hc
  rcases List.mem_append.1 hc with hc | hc
  · exact hx c hc
  · exact hy c hc

theorem AreMaximal.mono (hx : AreMaximal keyword events skipped files xs)
    (h : files ⊆ more) : AreMaximal keyword events skipped more xs := by
  intro c hc
  obtain ⟨lines, hfile, hm⟩ := hx c hc
  exact ⟨lines, h hfile, hm⟩

end AreMaximal

/-! ## 2. The open run -/

/-- What holds of the open run before line `n`: copying begins with its first
line and goes on from there, or, if it has no line, begins at line `n`. -/
structure Run.Leads (keyword : Keyword) (events : List Event)
    (skipped : List SkippedInclude) (file : Path) (lines : List Text)
    (run : Run) (n : Nat) : Prop where
  fresh : run.lines = [] → Fresh keyword skipped file lines n
  begins : ∀ text, run.lines.head? = some text →
    Begins keyword events skipped file lines run.first text
  ordinary : run.lines ≠ [] → ∀ l, run.first < l → l < n →
    IsOrdinary keyword lines l

namespace Run

variable {keyword : Keyword} {events : List Event}
  {skipped : List SkippedInclude} {file : Path} {lines : List Text}
  {run : Run} {n : Nat} {line : Text} {target : Path}

/-- No line is before the first one. -/
theorem leads_start : empty.Leads keyword events skipped file lines 1 :=
  ⟨fun _ => .inl rfl, by simp [empty], by simp [empty]⟩

/-- Behind a directive that was passed over. -/
theorem leads_passed (hl : lines[n - 1]? = some line)
    (hk : Includes keyword file line target)
    (hs : ⟨file, n, target⟩ ∈ skipped) :
    empty.Leads keyword events skipped file lines (n + 1) :=
  ⟨fun _ => .inr ⟨line, target, hl, hk, hs⟩, by simp [empty],
    by simp [empty]⟩

/-- Behind an included file. -/
theorem leads_standIn (hl : lines[n - 1]? = some line)
    (hk : Includes keyword file line target)
    (he : .inlining target file n ∈ events) :
    (standIn n).Leads keyword events skipped file lines (n + 1) := by
  refine ⟨by simp [standIn], ?_, ?_⟩
  · rintro text ⟨⟩
    exact .standIn hl hk he
  · intro _ l hlt hle
    have hlt : n < l := hlt
    omega

/-- An ordinary line is the first one of the run or goes on with it. -/
theorem Leads.push (h : run.Leads keyword events skipped file lines n)
    (hl : lines[n - 1]? = some line) (hk : ¬ keyword.text <+: line) :
    (run.push n line).Leads keyword events skipped file lines (n + 1) := by
  refine ⟨by simp [lines_push], ?_, ?_⟩
  · intro text htext
    unfold Run.push at htext ⊢
    split at htext
    · rename_i hr
      rw [if_pos hr]
      cases htext
      exact .copy hl hk (h.fresh hr)
    · rename_i hr
      rw [if_neg hr]
      rw [List.head?_append_of_ne_nil _ hr] at htext
      exact h.begins text htext
  · intro _ l hlt hle
    by_cases hln : l = n
    · rw [hln]
      exact ⟨line, hl, hk⟩
    · unfold Run.push at hlt
      split at hlt
      · have hlt : n < l := hlt
        omega
      · rename_i hr
        exact h.ordinary hr l hlt (by omega)

/-- Closing the run where copying ends gives a maximal chunk. -/
theorem Leads.areMaximal (h : run.Leads keyword events skipped file lines n)
    (hb : run.Before n) (he : EndsBefore keyword file lines n)
    (others : List (Path × List Text)) :
    AreMaximal keyword events skipped ((file, lines) :: others)
      (run.close file) := by
  intro c hc
  by_cases hr : run.lines = []
  · simp [close, hr] at hc
  · rw [close, if_neg hr, List.mem_singleton] at hc
    subst hc
    have hfirst := hb.first_pos hr
    have hadd := hb.first_add hr
    have hlines := Text.lfLines_endLines hb.lfFree
    have hcount : Chunk.lineCount ⟨Text.endLines run.lines, file,
        run.first - 1⟩ = run.lines.length :=
      Text.lineCount_endLines hb.lfFree
    have hoffset : run.first - 1 + 1 = run.first := by omega
    have hlast := Text.getLast?_endLines hr
    refine ⟨lines, List.mem_cons_self, ⟨?_, hlast⟩, ?_, ?_, ?_⟩
    · intro hn
      have hn : Text.endLines run.lines = [] := hn
      rw [hn] at hlast
      cases hlast
    · obtain ⟨text, rest, hcons⟩ := List.exists_cons_of_ne_nil hr
      have htext : run.lines.head? = some text := by rw [hcons]; rfl
      refine ⟨text, by rw [hlines, htext], ?_⟩
      rw [hoffset]
      exact h.begins text htext
    · rw [hoffset, hcount, hadd]
      exact h.ordinary hr
    · rw [hoffset, hcount, hadd]
      exact he

end Run

/-! ## 3. The chunks of a walk -/

theorem endsBefore_of_includes {keyword : Keyword} {file : Path}
    {lines : List Text} {line : Text} {target : Path} {n : Nat}
    (hl : lines[n - 1]? = some line)
    (hk : Includes keyword file line target) :
    EndsBefore keyword file lines n := by
  intro other ho
  rw [hl] at ho
  cases ho
  exact ⟨target, hk⟩

/-- Every chunk of a complete walk is a maximal run of the lines of its
file. -/
theorem Completes.areMaximal {reader : Reader} {keyword : Keyword}
    {file : Path} {n : Nat} {run : Run} {lines : List Text}
    {visited earlier : List Path} {w : Walk} {events : List Event}
    {skipped : List SkippedInclude} {all : List Text}
    (h : Completes reader keyword file n run lines visited earlier w)
    (hlf : reader.LfFree) (hn : AtLine n run lines)
    (ha : all.drop (n - 1) = lines) (he : w.events ⊆ events)
    (hs : w.skipped ⊆ skipped)
    (hr : run.Leads keyword events skipped file all n) :
    AreMaximal keyword events skipped
      ((file, all) :: reader.given earlier w.reads) w.chunks := by
  induction h generalizing all with
  | @nil file n run =>
    have hend : EndsBefore keyword file all n := by
      intro line hl
      have hle := List.drop_eq_nil_iff.1 ha
      rw [List.getElem?_eq_none hle] at hl
      cases hl
    exact hr.areMaximal hn.before hend _
  | ordinary hk _ ih =>
    have hpos := hn.before.pos
    refine ih hn.push (drop_of_drop_eq_cons hpos ha) he hs ?_
    exact hr.push (getElem?_of_drop_eq_cons ha)
      (Directive.classify_eq_ordinary_iff.1 hk)
  | @skip file n run line rest _ _ target after hk _ _ _ ih =>
    have hl := getElem?_of_drop_eq_cons ha
    have hclosed := hr.areMaximal hn.before (endsBefore_of_includes hl hk)
    have ih := ih hn.pass (drop_of_drop_eq_cons hn.before.pos ha)
      (fun e hm => he (by simp [hm])) (fun s hm => hs (by simp [hm]))
      (Run.leads_passed hl hk (hs (by simp)))
    rw [Walk.chunks_append]
    exact (hclosed _).append (by simpa using ih)
  | @inline file n run line rest _ earlier target inside inner after hk _ _ hi
      _ _ ihi iha =>
    have hl := getElem?_of_drop_eq_cons ha
    have hclosed := hr.areMaximal hn.before (endsBefore_of_includes hl hk)
    have ihi := ihi (.enter hlf hi) rfl (fun e hm => he (by simp [hm]))
      (fun s hm => hs (by simp [hm])) Run.leads_start
    have iha := iha hn.resume (drop_of_drop_eq_cons hn.before.pos ha)
      (fun e hm => he (by simp [hm])) (fun s hm => hs (by simp [hm]))
      (Run.leads_standIn hl hk (he (by simp)))
    rw [Walk.reads_append, Walk.reads_append, Walk.entered,
      Reader.given_inline hi, Walk.chunks_append, Walk.chunks_append]
    refine .append (.append (hclosed _) (ihi.mono ?_)) (iha.mono ?_)
    · exact List.subset_cons_of_subset _ (List.subset_append_left _ _)
    · exact List.cons_subset_cons _ (List.subset_append_right _ _)

/-! ## 4. From the top -/

section Top

variable {reader : Reader} {keyword : Keyword} {path : Path} {w : Walk}
  {f : Flattened} (hlf : reader.LfFree)
  (hw : walk? reader keyword path = some w) (hf : w.result = .ok f)

include hlf hw hf

theorem areMaximal_of_result_eq_ok :
    AreMaximal keyword w.events f.skipped (reader.given [] w.reads)
      f.chunks := by
  obtain ⟨lines, inner, hr, hi, rfl, rfl⟩ := exists_completes hw hf
  rw [Reader.given_begun hr]
  exact hi.areMaximal hlf (.enter hlf hr) rfl (by simp) (by simp)
    Run.leads_start

omit hlf in
/-- The key of a file that was read is marked. -/
theorem collapse_mem_visited : ∀ file ∈ w.reads,
    Path.collapse file ∈ f.visited := by
  obtain ⟨lines, inner, -, hi, rfl, rfl⟩ := exists_completes hw hf
  intro file hm
  rcases List.mem_cons.1 hm with rfl | hm
  · exact List.mem_cons_self
  · have hm : file ∈ inner.visited := hi.scans.reads_eq_visited ▸ hm
    rw [hi.scans.collapse_of_mem_visited file hm]
    exact List.mem_cons_of_mem _ hm

/-- No line of a chunk is a directive that was passed over. -/
theorem line_not_in_chunk_of_mem_skipped {c : Chunk} (hc : c ∈ f.chunks) :
    ∀ s ∈ f.skipped, s.file = c.file →
      s.line ≤ c.lineOffset ∨ c.lineOffset + c.lineCount < s.line := by
  intro s hs hfile
  by_contra hn
  have ho : s.origin ∈ Chunk.origins f.chunks :=
    List.mem_flatMap.2 ⟨c, hc, mem_places.2
      ⟨hfile, show c.lineOffset + 1 ≤ s.line by omega,
        show s.line < c.lineOffset + 1 + c.lineCount by omega⟩⟩
  have hnd := nodup_origins_of_result_eq_ok hlf hw hf
  exact (List.nodup_append.1 hnd).2.2 _ ho _ (List.mem_map_of_mem hs) rfl

/-- **Chunks are maximal runs.** A chunk shows lines of a file that was read
and whose key is marked. All of these lines are there; the ones behind the
first are ordinary, and the one behind the last, if it is there, is a
directive. The first line is a directive whose target was taken in, shown as
an empty line, or else an ordinary one with nothing before it but a directive
that was passed over. None of them was passed over itself. -/
theorem chunks_maximal : ∀ c ∈ f.chunks,
    Path.collapse c.file ∈ f.visited ∧
    (∀ s ∈ f.skipped, s.file = c.file →
      s.line ≤ c.lineOffset ∨ c.lineOffset + c.lineCount < s.line) ∧
    ∃ lines, (c.file, lines) ∈ reader.given [] w.reads ∧
      0 < c.lineCount ∧ c.lineOffset + c.lineCount ≤ lines.length ∧
      IsMaximal keyword w.events f.skipped lines c := by
  intro c hc
  obtain ⟨lines, hfile, hm⟩ := areMaximal_of_result_eq_ok hlf hw hf c hc
  have hread : c.file ∈ w.reads := (reader.map_fst_given_sublist [] _).subset
    (List.mem_map_of_mem hfile)
  exact ⟨collapse_mem_visited hw hf c.file hread,
    line_not_in_chunk_of_mem_skipped hlf hw hf hc, lines, hfile,
    hm.lineCount_pos, hm.le_length, hm⟩

end Top

/-- The last chunk of the two files is the line behind a directive that was
passed over. -/
theorem chunks_maximal_twoFiles :
    (Reader.steady twoFiles).LfFree ∧
    walk? (.steady twoFiles) hash ['.', '/', 'a'] = some twoFilesWalk ∧
    twoFilesWalk.result = .ok ⟨twoFilesWalk.chunks, twoFilesWalk.visited,
      twoFilesWalk.skipped⟩ ∧
    ⟨['y', '\n'], ['.', '/', 'a'], 2⟩ ∈ twoFilesWalk.chunks ∧
    Path.collapse ['.', '/', 'a'] ∈ twoFilesWalk.visited ∧
    ∃ lines,
      (['.', '/', 'a'], lines)
        ∈ (Reader.steady twoFiles).given [] twoFilesWalk.reads ∧
      2 + 1 ≤ lines.length ∧
      IsMaximal hash twoFilesWalk.events twoFilesWalk.skipped lines
        ⟨['y', '\n'], ['.', '/', 'a'], 2⟩ := by
  have hc : (⟨['y', '\n'], ['.', '/', 'a'], 2⟩ : Chunk)
      ∈ twoFilesWalk.chunks := by decide
  obtain ⟨hkey, -, lines, hfile, -, hle, hm⟩ :=
    chunks_maximal lfFree_twoFiles walk?_twoFiles rfl _ hc
  exact ⟨lfFree_twoFiles, walk?_twoFiles, rfl, hc, hkey, lines, hfile, hle,
    hm⟩

end IncludeFlattener
