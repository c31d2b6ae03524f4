/-
IncludeFlattener.Proofs.Flattening.Evidence — a failure is true, and it is
the first one.

`failure_evident` says what a failure stands for. Its file can be reached
from the top through directives. If it is a failure to read, the reader gives
that answer, in the last read and in no other. If a directive is at fault, it
stands in the line that the failure names, every read gave lines, and every
directive before it in its file was in order: it named a path, and not that
of its own file, and when the traversal came to it, the target was visited
already or was taken in to its end (`DealtWith`).

What was visited at a time is read off the states of the traversal, not off
what it has added in the end. `Stands` is what is known where it stands
before a line: the rules lead from one such place to the next, into an
included file and behind it. That no failure comes before this one is said of
the traversal as a whole: it goes on from state to state until it stops, and
there is one way only (`Traversal.Fails.unique`).
-/
import IncludeFlattener.Proofs.Flattening.Bijection
import IncludeFlattener.Proofs.Flattening.Reads
import IncludeFlattener.Proofs.Flattening.Traversal
import Mathlib.Logic.Relation
namespace IncludeFlattener

open Directive (classify Includes Names LacksPath)
open Traversal (Frame State Steps ComesTo Fails)

/-! ## 1. What a failure stands for -/

/-- One directive leads from the file read at `a` to the file read at `b`.
Unlike in an include graph, the paths that can be read need not be finitely
many: a walk can fail before it has met them. -/
def LeadsTo (read : Path → Answer) (keyword : Keyword) (top a b : Path) :
    Prop :=
  ∃ lines line q, read a = .ok lines ∧ line ∈ lines ∧
    Names keyword line q ∧ b = Path.spelled top (Path.join a q)

/-- Directives lead from the top to the file read at a path. -/
def Reached (read : Path → Answer) (keyword : Keyword) (top path : Path) :
    Prop :=
  Relation.ReflTransGen (LeadsTo read keyword top) top path

section Evidence

variable (read : Path → Answer) (keyword : Keyword) (top : Path)

/-- How the traversal dealt with the directive in line `n` of a file. -/
inductive DealtWith (file : Path) (n : Nat) (target : Path) : Prop where
  /-- Its target was visited when the traversal came to the line. -/
  | passed {line : Text} {rest : List Text} {outer : List Frame}
      {visited : List Path} {skipped : List SkippedInclude}
      (hc : ComesTo read keyword top
        ⟨⟨file, n, line :: rest⟩ :: outer, visited, skipped⟩)
      (hv : target ∈ visited)
  /-- Its target was not visited then; it was read, and the traversal went
  through it and came back to the next line. -/
  | inlined {line : Text} {rest inside : List Text} {outer : List Frame}
      {visited visited' : List Path} {skipped skipped' : List SkippedInclude}
      {es : List Event}
      (hc : ComesTo read keyword top
        ⟨⟨file, n, line :: rest⟩ :: outer, visited, skipped⟩)
      (hv : target ∉ visited) (hr : read target = .ok inside)
      (hi : Steps read keyword
        ⟨⟨target, 1, inside⟩ :: ⟨file, n + 1, rest⟩ :: outer,
          visited ++ [target], skipped⟩ es
        ⟨⟨file, n + 1, rest⟩ :: outer, visited', skipped'⟩)

/-- Every directive before line `n` of a file names a path, which is not that
of the file itself, and the traversal dealt with it. -/
def CleanBefore (file : Path) (lines : List Text) (n : Nat) : Prop :=
  ∀ l line, 0 < l → l < n → lines[l - 1]? = some line →
    keyword.text <+: line → ∃ target, Includes keyword file line target ∧
      target ≠ Path.collapse file ∧ DealtWith read keyword top file l target

/-- What a failure says about the files. -/
def Failure.Evident : Failure → Prop
  | .missing file => read file = .error .missing
  | .unreadable file reason =>
    read file = .error (.unopened reason) ∨
      read file = .error (.unreadable reason)
  | .malformedDirective file n text =>
    ∃ lines, read file = .ok lines ∧ 0 < n ∧ lines[n - 1]? = some text ∧
      LacksPath keyword text ∧ CleanBefore read keyword top file lines n
  | .selfInclude file =>
    ∃ lines n line, read file = .ok lines ∧ 0 < n ∧
      lines[n - 1]? = some line ∧
      Includes keyword file line (Path.collapse file) ∧
      CleanBefore read keyword top file lines n

end Evidence

section Clean

variable {read : Path → Answer} {keyword : Keyword} {top file : Path}
  {lines : List Text} {n : Nat}

theorem cleanBefore_one : CleanBefore read keyword top file lines 1 := by
  intro l line h0 h1
  omega

theorem CleanBefore.succ {line : Text}
    (h : CleanBefore read keyword top file lines n)
    (hl : lines[n - 1]? = some line)
    (hd : keyword.text <+: line → ∃ target,
      Includes keyword file line target ∧ target ≠ Path.collapse file ∧
        DealtWith read keyword top file n target) :
    CleanBefore read keyword top file lines (n + 1) := by
  intro l other h0 hlt ho hk
  rcases Nat.lt_succ_iff_lt_or_eq.1 hlt with hlt | rfl
  · exact h l other h0 hlt ho hk
  · rw [hl] at ho
    cases ho
    exact hd hk

/-- A file that could not be read is the evidence for its own failure. -/
theorem evident_ofRead {e : ReadFailure} (hr : read file = .error e) :
    (Failure.ofRead file e).Evident read keyword top := by
  cases e with
  | missing => exact hr
  | unopened reason => exact .inl hr
  | unreadable reason => exact .inr hr

end Clean

theorem file_ofRead (path : Path) (e : ReadFailure) :
    (Failure.ofRead path e).file = path := by
  cases e <;> rfl

/-! ## 2. Where a traversal stands -/

/-- The traversal stands before line `n` of a file, with `lines` still to be
scanned, and has visited these paths. -/
structure Stands (read : Path → Answer) (keyword : Keyword) (top file : Path)
    (n : Nat) (lines : List Text) (outer : List Frame) (visited : List Path)
    (skipped : List SkippedInclude) : Prop where
  comes : ComesTo read keyword top
    ⟨⟨file, n, lines⟩ :: outer, visited, skipped⟩
  reached : Reached read keyword top file
  pos : 0 < n
  clean : ∃ all, read file = .ok all ∧ all.drop (n - 1) = lines ∧
    CleanBefore read keyword top file all n
  top_mem : Path.collapse top ∈ visited

namespace Stands

variable {read : Path → Answer} {keyword : Keyword} {top file target : Path}
  {n : Nat} {line : Text} {rest inside : List Text} {outer : List Frame}
  {visited visited' : List Path} {skipped skipped' : List SkippedInclude}

theorem start {lines : List Text} (hr : read top = .ok lines) :
    Stands read keyword top top 1 lines [] [Path.collapse top] [] :=
  ⟨⟨lines, [], hr, .refl⟩, .refl, Nat.one_pos,
    ⟨lines, hr, rfl, cleanBefore_one⟩, List.mem_singleton_self _⟩

variable
  (h : Stands read keyword top file n (line :: rest) outer visited skipped)

include h

/-- A line has been dealt with, and the traversal stands before the next. -/
theorem next {es : List Event}
    (hs : Steps read keyword
      ⟨⟨file, n, line :: rest⟩ :: outer, visited, skipped⟩ es
      ⟨⟨file, n + 1, rest⟩ :: outer, visited', skipped'⟩)
    (hd : keyword.text <+: line → ∃ target,
      Includes keyword file line target ∧ target ≠ Path.collapse file ∧
        DealtWith read keyword top file n target) :
    Stands read keyword top file (n + 1) rest outer visited' skipped' := by
  obtain ⟨all, hr, ha, hc⟩ := h.clean
  obtain ⟨targets, -, -, hv, -⟩ := hs.tells
  have hv : visited' = visited ++ targets := hv
  refine ⟨h.comes.steps hs, h.reached, Nat.succ_pos n,
    ⟨all, hr, drop_of_drop_eq_cons h.pos ha,
      hc.succ (getElem?_of_drop_eq_cons ha) hd⟩, ?_⟩
  rw [hv]
  exact List.mem_append_left _ h.top_mem

theorem ordinary (hk : classify keyword line = .ordinary) :
    Stands read keyword top file (n + 1) rest outer visited skipped :=
  h.next (.single (Traversal.next_ordinary hk))
    fun hp => absurd hp (Directive.classify_eq_ordinary_iff.1 hk)

theorem passed (hk : Includes keyword file line target)
    (hs : target ≠ Path.collapse file) (hv : target ∈ visited) :
    Stands read keyword top file (n + 1) rest outer visited
      (skipped ++ [⟨file, n, target⟩]) :=
  h.next (.single (Traversal.next_skip hk hs hv))
    fun _ => ⟨target, hk, hs, .passed h.comes hv⟩

/-- The traversal has come through a target and back. -/
theorem resumed (hk : Includes keyword file line target)
    (hs : target ≠ Path.collapse file) (hv : target ∉ visited)
    (hr : read target = .ok inside) {es : List Event}
    (hi : Steps read keyword
      ⟨⟨target, 1, inside⟩ :: ⟨file, n + 1, rest⟩ :: outer,
        visited ++ [target], skipped⟩ es
      ⟨⟨file, n + 1, rest⟩ :: outer, visited', skipped'⟩) :
    Stands read keyword top file (n + 1) rest outer visited' skipped' :=
  h.next (.head (Traversal.next_take hk hs hv hr) hi)
    fun _ => ⟨target, hk, hs, .inlined h.comes hv hr hi⟩

theorem reached_target (hk : Includes keyword file line target)
    (hv : target ∉ visited) : Reached read keyword top target := by
  obtain ⟨quoted, hq, rfl⟩ := hk
  obtain ⟨all, hr, ha, -⟩ := h.clean
  have hm := List.mem_of_getElem? (getElem?_of_drop_eq_cons ha)
  refine h.reached.tail ⟨all, line, quoted, hr, hm,
    Directive.classify_eq_directive_iff.1 hq, ?_⟩
  rw [Path.spelled, if_neg]
  intro he
  exact hv (he ▸ h.top_mem)

theorem entered (hk : Includes keyword file line target)
    (hs : target ≠ Path.collapse file) (hv : target ∉ visited)
    (hr : read target = .ok inside) :
    Stands read keyword top target 1 inside (⟨file, n + 1, rest⟩ :: outer)
      (visited ++ [target]) skipped :=
  ⟨h.comes.steps (.single (Traversal.next_take hk hs hv hr)),
    h.reached_target hk hv, Nat.one_pos, ⟨inside, hr, rfl, cleanBefore_one⟩,
    List.mem_append_left _ h.top_mem⟩

end Stands

/-! ## 3. The end of a walk that failed -/

theorem Scans.evident {read : Path → Answer} {keyword : Keyword}
    {top file : Path} {n : Nat} {run : Run} {lines : List Text}
    {visited earlier : List Path} {w : Walk} {e : Failure}
    {outer : List Frame} {skipped : List SkippedInclude}
    (h : Scans (.steady read) keyword file n run lines visited earlier w)
    (hs : Stands read keyword top file n lines outer visited skipped)
    (hf : w.failure = some e) :
    Reached read keyword top e.file ∧ e.Evident read keyword top := by
  induction h generalizing outer skipped with
  | nil => cases hf
  | ordinary hk _ ih => exact ih (hs.ordinary hk) hf
  | malformed hk =>
    cases hf
    obtain ⟨all, hall, ha, hc⟩ := hs.clean
    exact ⟨hs.reached, all, hall, hs.pos, getElem?_of_drop_eq_cons ha,
      Directive.classify_eq_malformed_iff.1 hk, hc⟩
  | selfInclude hk =>
    cases hf
    obtain ⟨all, hall, ha, hc⟩ := hs.clean
    exact ⟨hs.reached, all, _, _, hall, hs.pos, getElem?_of_drop_eq_cons ha,
      hk, hc⟩
  | skip hk hne hm _ ih => exact ih (hs.passed hk hne hm) hf
  | unread hk _ hm herr =>
    cases hf
    rw [file_ofRead]
    exact ⟨hs.reached_target hk hm, evident_ofRead herr⟩
  | innerFailed hk hne hm hok _ _ ih => exact ih (hs.entered hk hne hm hok) hf
  | @inline file n _ _ rest _ _ _ _ _ _ hk hne hm hok hi hn _ _ iha =>
    have hback :=
      (hi.completes hn).steps (⟨file, n + 1, rest⟩ :: outer) skipped
    refine iha (hs.resumed hk hne hm hok hback) ?_
    simpa [Answer.failure?, hn] using hf

/-- **A failure is true, and it is the first one.** Its file can be reached
from the top, and it says of that file what is the case: that it cannot be
read, and why, or which of its directives is at fault, where all directives
before that one were in order and have been dealt with. A read that failed is
the last one and no other failed; where a directive is at fault, none did.
The traversal of the files comes to this failure and to no other. There is no
text then. -/
theorem failure_evident {read : Path → Answer} {keyword : Keyword}
    {top : Path} {w : Walk} {e : Failure}
    (hw : walk? (.steady read) keyword top = some w)
    (he : w.result = .error e) :
    Reached read keyword top e.file ∧ e.Evident read keyword top ∧
      e.ReadsTell (.steady read) w.reads ∧
      (∀ es e', Fails read keyword top es e' ↔ es = w.events ∧ e' = e) ∧
      ∀ f, flatten? (.steady read) keyword top ≠ some (.ok f) := by
  have hf := Walk.result_eq_error_iff.1 he
  have htell : e.ReadsTell (.steady read) w.reads := by
    have h := readsEnd_of_walk hw
    rw [hf] at h
    exact h.readsTell (file_mem_reads hw hf)
  have hfirst : ∀ es e', Fails read keyword top es e' ↔
      es = w.events ∧ e' = e := by
    have h := fails_of_result_eq_error hw he
    intro es e'
    refine ⟨fun h' => h'.unique h, ?_⟩
    rintro ⟨rfl, rfl⟩
    exact h
  have hno : ∀ f, flatten? (.steady read) keyword top ≠ some (.ok f) := by
    intro f h
    rw [flatten?, hw, Option.map_some, he] at h
    cases h
  obtain ⟨reason, hr, rfl⟩ | ⟨lines, inner, hr, hi, rfl⟩ :=
    walk?_eq_some_iff.1 hw
  · cases hf
    rw [file_ofRead]
    exact ⟨.refl, evident_ofRead hr, htell, hfirst, hno⟩
  · obtain ⟨hreach, hev⟩ := hi.evident (.start hr) hf
    exact ⟨hreach, hev, htell, hfirst, hno⟩

/-! ## A directive without a path -/

/-- The file `./a` includes `b`. Of the directives of `b`, the first one names
`a`, the second one `c`, and the third one nothing. -/
def barePath : Path → Answer
  | ['.', '/', 'a'] => .ok [['x'], ['#', '"', 'b', '"']]
  | ['b'] => .ok [['#', '"', 'a', '"'], ['#', '"', 'c', '"'], ['#', 'c']]
  | ['c'] => .ok [['y']]
  | _ => .error .missing

/-- The walk from `./a`. -/
def barePathWalk : Walk where
  reads := [['.', '/', 'a'], ['b'], ['c']]
  events := [.reading ['.', '/', 'a'], .inlining ['b'] ['.', '/', 'a'] 2,
    .reading ['b'], .skipping ['a'] ['b'] 1, .inlining ['c'] ['b'] 2,
    .reading ['c']]
  visited := [['a'], ['b'], ['c']]
  skipped := [⟨['b'], 1, ['a']⟩]
  chunks := [⟨['x', '\n'], ['.', '/', 'a'], 0⟩, ⟨['y', '\n'], ['c'], 0⟩]
  failure := some (.malformedDirective ['b'] 3 ['#', 'c'])

/-- The third line of `b` is at fault, and the two before it are not. -/
theorem failure_evident_barePath :
    walk? (.steady barePath) hash ['.', '/', 'a'] = some barePathWalk ∧
    barePathWalk.result = .error (.malformedDirective ['b'] 3 ['#', 'c']) ∧
    Reached barePath hash ['.', '/', 'a'] ['b'] ∧
    (Reader.steady barePath).GivesAll [] barePathWalk.reads ∧
    ∃ lines, barePath ['b'] = .ok lines ∧
      CleanBefore barePath hash ['.', '/', 'a'] ['b'] lines 3 := by
  have hw : walk? (.steady barePath) hash ['.', '/', 'a']
      = some barePathWalk := by cbv
  obtain ⟨hreach, ⟨lines, hr, -, -, -, hc⟩, ⟨-, hall⟩, -⟩ :=
    failure_evident hw rfl
  exact ⟨hw, rfl, hreach, hall, lines, hr, hc⟩

end IncludeFlattener
