/-
IncludeFlattener.Proofs.Flattening.Redundancy — a directive that is passed
over could as well not be there.

`linesWithout` drops lines from a file. If the directives that a walk passed
over are dropped from the files that it read, flattening gives the same text
of the same files, and there is nothing left to pass over.

The two walks are compared rule by rule. They have the same marks wherever
both stand, for a directive that is passed over marks nothing; so what is
left of the directives brings in what it brought in before. Line numbers and
chunks do differ: a directive that is passed over closes the run of lines
that is open, and without it the run goes on. `SameText` therefore compares
what two walks add behind their open runs, whatever the runs are.
-/
import IncludeFlattener.Proofs.Flattening.Directives
import IncludeFlattener.Proofs.Flattening.PlainText
namespace IncludeFlattener

open Directive (classify Includes)

/-! ## 1. Files with lines dropped -/

/-- The lines of a file, of which `n` is the number of the first one, without
those at the places that are gone. -/
def linesWithout (gone : List Origin) (file : Path) (n : Nat)
    (lines : List Text) : List Text :=
  ((lines.zipIdx n).filter fun x => (file, x.2) ∉ gone).map Prod.fst

/-- Of the lines of a file only directives are gone. -/
def OnlyDirectivesGone (keyword : Keyword) (gone : List Origin) (file : Path)
    (n : Nat) (lines : List Text) : Prop :=
  ∀ x ∈ lines.zipIdx n, (file, x.2) ∈ gone → keyword.text <+: x.1

section Lines

variable {keyword : Keyword} {gone : List Origin} {file : Path} {n : Nat}
  {line : Text} {rest : List Text}

theorem linesWithout_of_mem (h : (file, n) ∈ gone) :
    linesWithout gone file n (line :: rest)
      = linesWithout gone file (n + 1) rest := by
  rw [linesWithout, List.zipIdx_cons, List.filter_cons_of_neg (by simpa)]
  rfl

theorem linesWithout_of_not_mem (h : (file, n) ∉ gone) :
    linesWithout gone file n (line :: rest)
      = line :: linesWithout gone file (n + 1) rest := by
  rw [linesWithout, List.zipIdx_cons, List.filter_cons_of_pos (by simpa)]
  rfl

theorem OnlyDirectivesGone.tail
    (h : OnlyDirectivesGone keyword gone file n (line :: rest)) :
    OnlyDirectivesGone keyword gone file (n + 1) rest := by
  intro x hx
  refine h x ?_
  rw [List.zipIdx_cons]
  exact List.mem_cons_of_mem _ hx

theorem OnlyDirectivesGone.not_mem_of_ordinary
    (h : OnlyDirectivesGone keyword gone file n (line :: rest))
    (hk : classify keyword line = .ordinary) : (file, n) ∉ gone := by
  intro hg
  have hp := h (line, n) (by simp [List.zipIdx_cons]) hg
  exact Directive.classify_eq_ordinary_iff.1 hk hp

end Lines

/-! ## 2. Walks that add the same text -/

/-- An included file adds its text behind the run that was open. -/
theorem Walk.joined_entered {run : Run} {file target : Path} {n : Nat}
    {answer : Answer} {inner after : Walk} :
    Chunk.joined
        (Walk.entered run file n target answer ++ inner ++ after).chunks
      = Text.endLines run.lines
        ++ (Chunk.joined inner.chunks ++ Chunk.joined after.chunks) := by
  rw [Walk.chunks_append, Walk.chunks_append, Chunk.joined_append,
    Chunk.joined_append, Walk.entered, Run.joined_close, List.append_assoc]

/-- Two walks mark the same files and add the same text behind the runs that
were open before them, and the second one passes nothing over. -/
structure SameText (run run' : Run) (w w' : Walk) : Prop where
  visited : w'.visited = w.visited
  skipped : w'.skipped = []
  text : ∃ text, Chunk.joined w.chunks = Text.endLines run.lines ++ text ∧
    Chunk.joined w'.chunks = Text.endLines run'.lines ++ text

namespace SameText

variable {run run' : Run} {file target : Path} {n m : Nat}
  {inner inner' after after' : Walk}

theorem closed : SameText run run' (.closed run file) (.closed run' file)
    where
  visited := rfl
  skipped := rfl
  text := by
    refine ⟨[], ?_, ?_⟩
    · rw [Walk.closed, Run.joined_close, List.append_nil]
    · rw [Walk.closed, Run.joined_close, List.append_nil]

/-- A line that both runs take up is the first one that both walks add. -/
theorem push {line : Text}
    (h : SameText (run.push n line) (run'.push m line) after after') :
    SameText run run' after after' where
  visited := h.visited
  skipped := h.skipped
  text := by
    obtain ⟨text, h1, h2⟩ := h.text
    rw [Run.endLines_push, List.append_assoc, List.append_assoc] at h1 h2
    exact ⟨_, h1, h2⟩

/-- Passing a directive over closes the open run, but adds no text. -/
theorem passed (h : SameText .empty run' after after') :
    SameText run run' (.passed run file n target ++ after) after' where
  visited := by simp [h.visited]
  skipped := h.skipped
  text := by
    obtain ⟨text, h1, h2⟩ := h.text
    refine ⟨text, ?_, h2⟩
    rw [Walk.chunks_append, Walk.passed, Chunk.joined_append,
      Run.joined_close, h1]
    rfl

theorem entered {inside inside' : List Text}
    (hi : SameText .empty .empty inner inner')
    (ha : SameText (.standIn n) (.standIn m) after after') :
    SameText run run'
      (.entered run file n target (.ok inside) ++ inner ++ after)
      (.entered run' file m target (.ok inside') ++ inner' ++ after') where
  visited := by simp [hi.visited, ha.visited]
  skipped := by simp [hi.skipped, ha.skipped]
  text := by
    obtain ⟨text, h1, h2⟩ := hi.text
    obtain ⟨text', h3, h4⟩ := ha.text
    refine ⟨text ++ '\n' :: text', ?_, ?_⟩
    · rw [Walk.joined_entered, h1, h3]
      simp [Run.empty, Run.standIn]
    · rw [Walk.joined_entered, h2, h4]
      simp [Run.empty, Run.standIn]

end SameText

/-- A walk goes on as before when the directives that it passes over are
gone. -/
theorem Completes.exists_without {read read' : Path → Answer}
    {keyword : Keyword} {gone : List Origin} {file : Path} {n : Nat}
    {run : Run} {lines : List Text} {visited earlier : List Path} {w : Walk}
    (h : Completes (.steady read) keyword file n run lines visited earlier w)
    (hr : ∀ path ∈ w.reads,
      read' path = (read path).map (linesWithout gone path 1))
    (hs : ∀ s ∈ w.skippedSites, s.origin ∈ gone)
    (hb : ∀ s ∈ w.brought, s.origin ∉ gone)
    (hd : OnlyDirectivesGone keyword gone file n lines)
    (hall : ∀ path lines, read path = .ok lines →
      OnlyDirectivesGone keyword gone path 1 lines)
    (m : Nat) (run' : Run) (earlier' : List Path) :
    ∃ w', Completes (.steady read') keyword file m run'
        (linesWithout gone file n lines) visited earlier' w' ∧
      SameText run run' w w' := by
  induction h generalizing m run' earlier' with
  | nil => exact ⟨_, .nil, .closed⟩
  | @ordinary file n run line rest _ _ after hk _ ih =>
    obtain ⟨after', ha', hsame⟩ := ih hr hs hb hd.tail (m + 1)
      (run'.push m line) earlier'
    rw [linesWithout_of_not_mem (hd.not_mem_of_ordinary hk)]
    exact ⟨after', .ordinary hk ha', hsame.push⟩
  | @skip file n run line rest _ _ target after hk _ _ _ ih =>
    rw [Walk.skippedSites_append, Walk.skippedSites_passed,
      List.forall_mem_append, List.forall_mem_singleton] at hs
    -- The second walk stays where it is, with its run still open.
    obtain ⟨after', ha', hsame⟩ := ih hr hs.2 hb hd.tail m run' earlier'
    rw [linesWithout_of_mem hs.1]
    exact ⟨after', ha', hsame.passed⟩
  | @inline file n run line rest visited _ target inside inner after hk hne hv
      hread _ _ ihi iha =>
    rw [Walk.skippedSites_append, Walk.skippedSites_append,
      List.forall_mem_append, List.forall_mem_append] at hs
    rw [Walk.brought_append, Walk.brought_append, Walk.brought_entered,
      List.forall_mem_append, List.forall_mem_append,
      List.forall_mem_singleton] at hb
    rw [Walk.reads_append, Walk.reads_append, Walk.entered,
      List.forall_mem_append, List.forall_mem_append,
      List.forall_mem_singleton] at hr
    obtain ⟨inner', hi', hsi⟩ := ihi hr.1.2 hs.1.2 hb.1.2
      (hall target inside hread) 1 .empty (earlier' ++ [target])
    obtain ⟨after', ha', hsa⟩ := iha hr.2 hs.2 hb.2 hd.tail (m + 1)
      (.standIn m) (earlier' ++ [target] ++ inner'.reads)
    have hread' : read' target = .ok (linesWithout gone target 1 inside) := by
      rw [hr.1.1, show read target = .ok inside from hread]
      rfl
    rw [linesWithout_of_not_mem hb.1.1]
    rw [← hsi.visited] at ha'
    exact ⟨_, .inline hk hne hv hread' hi' ha', hsi.entered hsa⟩

/-! ## 3. From the top -/

/-- The lines of a file without the directives that were passed over. -/
def Flattened.linesLeft (f : Flattened) (file : Path) (lines : List Text) :
    List Text :=
  linesWithout (f.skipped.map SkippedInclude.origin) file 1 lines

/-- Nothing but directives was passed over. -/
theorem onlyDirectivesGone_of_result_eq_ok {read : Path → Answer}
    {keyword : Keyword} {top : Path} {w : Walk} {f : Flattened}
    (hw : walk? (.steady read) keyword top = some w) (hf : w.result = .ok f)
    {path : Path} {lines : List Text} (hr : read path = .ok lines) :
    OnlyDirectivesGone keyword (f.skipped.map SkippedInclude.origin) path 1
      lines := by
  rintro ⟨line, n⟩ hx hg
  obtain ⟨k, hk, ho⟩ := List.mem_map.1 hg
  rw [skipped_eq_map hw hf] at hk
  obtain ⟨s, hs, rfl⟩ := List.mem_map.1 hk
  obtain ⟨-, -, lines', line', -, hr', -, hl', hi⟩ :=
    (mem_sites_iff hw hf).1 (w.skippedSites_subset hs)
  obtain ⟨rfl, rfl⟩ : s.file = path ∧ s.line = n := Prod.mk.inj ho
  obtain ⟨-, hl⟩ := List.mk_mem_zipIdx_iff_le_and_getElem?_sub.1 hx
  rw [hr] at hr'
  cases hr'
  rw [hl] at hl'
  cases hl'
  exact hi.keyword_isPrefix

/-- **Directives that are passed over are redundant.** Without them in the
files that were read, flattening gives the same text of the same files, and
passes nothing over. -/
theorem flatten?_without_skipped {read read' : Path → Answer}
    {keyword : Keyword} {top : Path} {w : Walk} {f : Flattened}
    (hw : walk? (.steady read) keyword top = some w) (hf : w.result = .ok f)
    (hr : ∀ path ∈ w.reads, read' path = (read path).map (f.linesLeft path)) :
    ∃ g, flatten? (.steady read') keyword top = some (.ok g) ∧
      g.text = f.text ∧ g.visited = f.visited ∧ g.skipped = [] := by
  have hgone : ∀ path lines, read path = .ok lines →
      OnlyDirectivesGone keyword (f.skipped.map SkippedInclude.origin) path 1
        lines := fun _ _ => onlyDirectivesGone_of_result_eq_ok hw hf
  have hskipped : ∀ s ∈ w.skippedSites,
      s.origin ∈ f.skipped.map SkippedInclude.origin := by
    intro s hs
    exact List.mem_map.2 ⟨s.skipped, skipped_mem_of_mem hw hf hs, rfl⟩
  have hbrought : ∀ s ∈ w.brought,
      s.origin ∉ f.skipped.map SkippedInclude.origin := by
    intro s hs hm
    obtain ⟨k, hk, ho⟩ := List.mem_map.1 hm
    exact not_skipped_of_mem_brought hw hf hs k hk (Prod.mk.inj ho)
  obtain ⟨lines, inner, hread, hi, rfl, hfl⟩ := exists_completes hw hf
  obtain ⟨htop, hinner⟩ := List.forall_mem_cons.1 hr
  obtain ⟨inner', hi', hsame⟩ := hi.exists_without hinner hskipped hbrought
    (hgone top lines hread) hgone 1 .empty [top]
  have hread' : read' top = .ok (f.linesLeft top lines) := by
    rw [htop, show read top = .ok lines from hread]
    rfl
  obtain ⟨text, h1, h2⟩ := hsame.text
  refine ⟨_, hi'.flatten?_eq hread', ?_, ?_, hsame.skipped⟩
  · rw [hfl]
    exact h2.trans h1.symm
  · rw [hfl, hsame.visited]

/-- The two files without the directives that are passed over: in `./a` the
second one is left out, and in `b` the only one. -/
def twoFilesLeft : Path → Answer
  | ['.', '/', 'a'] => .ok [['#', '"', 'b', '"'], ['y']]
  | ['b'] => .ok [['z']]
  | _ => .error .missing

/-- What is left of the two files gives the text of both. -/
theorem flatten?_without_skipped_twoFiles :
    walk? (.steady twoFiles) hash ['.', '/', 'a'] = some twoFilesWalk ∧
    twoFilesWalk.result = .ok twoFilesText ∧
    (∀ path ∈ twoFilesWalk.reads, twoFilesLeft path
      = (twoFiles path).map (twoFilesText.linesLeft path)) ∧
    ∃ g, flatten? (.steady twoFilesLeft) hash ['.', '/', 'a'] = some (.ok g) ∧
      g.text = ['z', '\n', '\n', 'y', '\n'] ∧ g.visited = [['a'], ['b']] ∧
      g.skipped = [] := by
  have hr : ∀ path ∈ twoFilesWalk.reads, twoFilesLeft path
      = (twoFiles path).map (twoFilesText.linesLeft path) := by
    intro path hm
    rcases List.mem_cons.1 hm with rfl | hm
    · rfl
    · rcases List.mem_singleton.1 hm with rfl
      rfl
  exact ⟨walk?_twoFiles, rfl, hr,
    flatten?_without_skipped walk?_twoFiles rfl hr⟩

end IncludeFlattener
