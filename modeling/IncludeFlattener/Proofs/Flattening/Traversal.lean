/-
IncludeFlattener.Proofs.Flattening.Traversal — a walk as a machine that goes
from file to file, one line at a time.

The state is the stack of the open files, each at a line, together with the
account so far: the paths that were visited and the directives that were
passed over. `next` closes a file, copies a line, passes over a directive or
opens its target, and each of these has its events; or it stops with a
failure. There is no walk to put together and no file to come back from, so
the events that it has until it stops are those of the traversal up to the
failure, and there is one way only to get there (`Fails.unique`).

* `Completes.steps` and `Scans.stops`: a walk has the events of the machine,
  and ends as it does.
* `tells_of_next` and `Steps.tells`: with each step, and so over a whole run,
  the events tell what is added to the account (`Tells`).
-/
import IncludeFlattener.Flattening
namespace IncludeFlattener

open Directive (classify Includes)

namespace Traversal

/-! ## 1. The machine -/

/-- A file that is open, and where it goes on. -/
structure Frame where
  file : Path
  line : Nat
  rest : List Text

/-- The open files, the innermost first, and the account so far. -/
structure State where
  stack : List Frame
  visited : List Path
  skipped : List SkippedInclude

/-- What comes next, and the events of it. -/
inductive Next where
  | goes (events : List Event) (state : State)
  | stops (events : List Event) (failure : Failure)
  /-- All files are closed. -/
  | finished

/-- What comes next in a state. -/
def next (read : Path → Answer) (keyword : Keyword) : State → Next
  | ⟨[], _, _⟩ => .finished
  | ⟨⟨_, _, []⟩ :: outer, visited, skipped⟩ =>
    .goes [] ⟨outer, visited, skipped⟩
  | ⟨⟨file, n, line :: rest⟩ :: outer, visited, skipped⟩ =>
    let stack := ⟨file, n + 1, rest⟩ :: outer
    match classify keyword line with
    | .ordinary => .goes [] ⟨stack, visited, skipped⟩
    | .malformed => .stops [] (.malformedDirective file n line)
    | .directive quoted =>
      let target := Path.join file quoted
      if target = Path.collapse file then .stops [] (.selfInclude file)
      else if target ∈ visited then
        .goes [.skipping target file n]
          ⟨stack, visited, skipped ++ [⟨file, n, target⟩]⟩
      else
        match read target with
        | .error e =>
          .stops (.inlining target file n :: openings target (.error e))
            (.ofRead target e)
        | .ok inside =>
          .goes [.inlining target file n, .reading target]
            ⟨⟨target, 1, inside⟩ :: stack, visited ++ [target], skipped⟩

/-- The state in which the file at the top is open. -/
def start (top : Path) (lines : List Text) : State :=
  ⟨[⟨top, 1, lines⟩], [Path.collapse top], []⟩

section Machine

variable (read : Path → Answer) (keyword : Keyword)

/-- One state leads to another with these events on the way. -/
inductive Steps : State → List Event → State → Prop where
  | refl {s : State} : Steps s [] s
  | head {s s' s'' : State} {es fs : List Event}
      (hn : next read keyword s = .goes es s') (hs : Steps s' fs s'') :
      Steps s (es ++ fs) s''

/-- The traversal of the file at a path comes to this state. -/
def ComesTo (top : Path) (s : State) : Prop :=
  ∃ lines es, read top = .ok lines ∧
    Steps read keyword (start top lines) es s

/-- The traversal of the file at a path has these events, and then it has
failed. -/
inductive Fails (top : Path) : List Event → Failure → Prop where
  | unread {e : ReadFailure} (hr : read top = .error e) :
      Fails top (openings top (.error e)) (.ofRead top e)
  | stopped {lines : List Text} {es last : List Event} {s : State}
      {failure : Failure} (hr : read top = .ok lines)
      (hs : Steps read keyword (start top lines) es s)
      (hn : next read keyword s = .stops last failure) :
      Fails top (.reading top :: (es ++ last)) failure

end Machine

section Rules

variable {read : Path → Answer} {keyword : Keyword} {file target : Path}
  {n : Nat} {line : Text} {rest inside : List Text} {outer : List Frame}
  {visited : List Path} {skipped : List SkippedInclude}

theorem next_nil :
    next read keyword ⟨⟨file, n, []⟩ :: outer, visited, skipped⟩
      = .goes [] ⟨outer, visited, skipped⟩ := rfl

theorem next_ordinary (hk : classify keyword line = .ordinary) :
    next read keyword ⟨⟨file, n, line :: rest⟩ :: outer, visited, skipped⟩
      = .goes [] ⟨⟨file, n + 1, rest⟩ :: outer, visited, skipped⟩ := by
  rw [next, hk]

theorem next_malformed (hk : classify keyword line = .malformed) :
    next read keyword ⟨⟨file, n, line :: rest⟩ :: outer, visited, skipped⟩
      = .stops [] (.malformedDirective file n line) := by
  rw [next, hk]

theorem next_selfInclude
    (hk : Includes keyword file line (Path.collapse file)) :
    next read keyword ⟨⟨file, n, line :: rest⟩ :: outer, visited, skipped⟩
      = .stops [] (.selfInclude file) := by
  obtain ⟨quoted, hk, hj⟩ := hk
  rw [next, hk]
  exact if_pos hj

theorem next_skip (hk : Includes keyword file line target)
    (hs : target ≠ Path.collapse file) (hv : target ∈ visited) :
    next read keyword ⟨⟨file, n, line :: rest⟩ :: outer, visited, skipped⟩
      = .goes [.skipping target file n] ⟨⟨file, n + 1, rest⟩ :: outer,
          visited, skipped ++ [⟨file, n, target⟩]⟩ := by
  obtain ⟨quoted, hk, rfl⟩ := hk
  rw [next, hk]
  exact (if_neg hs).trans (if_pos hv)

theorem next_unread {e : ReadFailure} (hk : Includes keyword file line target)
    (hs : target ≠ Path.collapse file) (hv : target ∉ visited)
    (hr : read target = .error e) :
    next read keyword ⟨⟨file, n, line :: rest⟩ :: outer, visited, skipped⟩
      = .stops (.inlining target file n :: openings target (.error e))
          (.ofRead target e) := by
  obtain ⟨quoted, hk, rfl⟩ := hk
  rw [next, hk]
  simp only [hs, hv, if_false, hr]

theorem next_take (hk : Includes keyword file line target)
    (hs : target ≠ Path.collapse file) (hv : target ∉ visited)
    (hr : read target = .ok inside) :
    next read keyword ⟨⟨file, n, line :: rest⟩ :: outer, visited, skipped⟩
      = .goes [.inlining target file n, .reading target]
          ⟨⟨target, 1, inside⟩ :: ⟨file, n + 1, rest⟩ :: outer,
            visited ++ [target], skipped⟩ := by
  obtain ⟨quoted, hk, rfl⟩ := hk
  rw [next, hk]
  simp only [hs, hv, if_false, hr]

end Rules

/-! ## 2. Runs of the machine -/

section Runs

variable {read : Path → Answer} {keyword : Keyword}

theorem Steps.single {s s' : State} {es : List Event}
    (hn : next read keyword s = .goes es s') :
    Steps read keyword s es s' := by
  have h := Steps.head hn .refl
  rwa [List.append_nil] at h

theorem Steps.trans {s s' s'' : State} {es fs : List Event}
    (h : Steps read keyword s es s') (h' : Steps read keyword s' fs s'') :
    Steps read keyword s (es ++ fs) s'' := by
  induction h with
  | refl => exact h'
  | head hn _ ih =>
    rw [List.append_assoc]
    exact .head hn (ih h')

theorem ComesTo.steps {top : Path} {s s' : State} {es : List Event}
    (h : ComesTo read keyword top s) (hs : Steps read keyword s es s') :
    ComesTo read keyword top s' := by
  obtain ⟨lines, before, hr, h⟩ := h
  exact ⟨lines, before ++ es, hr, h.trans hs⟩

/-- Runs that lead from one state to a stop are one run. -/
theorem Steps.unique {s t t' : State} {es es' last last' : List Event}
    {e e' : Failure} (h : Steps read keyword s es t)
    (h' : Steps read keyword s es' t')
    (ht : next read keyword t = .stops last e)
    (ht' : next read keyword t' = .stops last' e') :
    es ++ last = es' ++ last' ∧ e = e' := by
  induction h generalizing es' with
  | refl =>
    cases h' with
    | refl =>
      cases ht.symm.trans ht'
      exact ⟨rfl, rfl⟩
    | head hn' _ => cases ht.symm.trans hn'
  | head hn _ ih =>
    cases h' with
    | refl => cases hn.symm.trans ht'
    | head hn' hs' =>
      cases hn.symm.trans hn'
      obtain ⟨hes, he⟩ := ih hs' ht
      rw [List.append_assoc, List.append_assoc, hes]
      exact ⟨rfl, he⟩

/-- There is one way to the failure of a traversal. -/
theorem Fails.unique {top : Path} {es es' : List Event} {e e' : Failure}
    (h : Fails read keyword top es e) (h' : Fails read keyword top es' e') :
    es = es' ∧ e = e' := by
  cases h with
  | unread hr =>
    cases h' with
    | unread hr' =>
      cases hr.symm.trans hr'
      exact ⟨rfl, rfl⟩
    | stopped hr' _ _ => cases hr.symm.trans hr'
  | stopped hr hs hn =>
    cases h' with
    | unread hr' => cases hr.symm.trans hr'
    | stopped hr' hs' hn' =>
      cases hr.symm.trans hr'
      obtain ⟨hes, he⟩ := hs.unique hs' hn hn'
      exact ⟨congrArg _ hes, he⟩

end Runs

/-! ## 3. What the events tell -/

/-- The events tell of these targets, each of which is opened as soon as it
is taken in, and of these directives that are passed over, and of nothing
else. -/
inductive Tells : List Event → List Path → List SkippedInclude → Prop where
  | nil : Tells [] [] []
  | taken {target file : Path} {n : Nat} {es : List Event}
      {targets : List Path} {skipped : List SkippedInclude}
      (h : Tells es targets skipped) :
      Tells (.inlining target file n :: .reading target :: es)
        (target :: targets) skipped
  | passed {target file : Path} {n : Nat} {es : List Event}
      {targets : List Path} {skipped : List SkippedInclude}
      (h : Tells es targets skipped) :
      Tells (.skipping target file n :: es) targets
        (⟨file, n, target⟩ :: skipped)

theorem Tells.append {es fs : List Event} {targets targets' : List Path}
    {skipped skipped' : List SkippedInclude} (h : Tells es targets skipped)
    (h' : Tells fs targets' skipped') :
    Tells (es ++ fs) (targets ++ targets') (skipped ++ skipped') := by
  induction h with
  | nil => exact h'
  | taken _ ih => exact ih.taken
  | passed _ ih => exact ih.passed

section Account

variable {read : Path → Answer} {keyword : Keyword} {s s' : State}
  {es : List Event}

/-- What a step adds to the account is what its events tell. -/
theorem tells_of_next (h : next read keyword s = .goes es s') :
    ∃ targets skipped, Tells es targets skipped ∧
      s'.visited = s.visited ++ targets ∧
      s'.skipped = s.skipped ++ skipped := by
  unfold next at h
  split at h
  · cases h
  · cases h
    exact ⟨[], [], .nil, by simp⟩
  · dsimp only at h
    split at h
    · cases h
      exact ⟨[], [], .nil, by simp⟩
    · cases h
    · split at h
      · cases h
      · split at h
        · cases h
          exact ⟨[], [_], .passed .nil, by simp⟩
        · split at h
          · cases h
          · cases h
            exact ⟨[_], [], .taken .nil, by simp⟩

/-- So is what a run adds. -/
theorem Steps.tells (h : Steps read keyword s es s') :
    ∃ targets skipped, Tells es targets skipped ∧
      s'.visited = s.visited ++ targets ∧
      s'.skipped = s.skipped ++ skipped := by
  induction h with
  | refl => exact ⟨[], [], .nil, by simp⟩
  | head hn _ ih =>
    obtain ⟨targets, skipped, ht, hv, hs⟩ := tells_of_next hn
    obtain ⟨targets', skipped', ht', hv', hs'⟩ := ih
    refine ⟨targets ++ targets', skipped ++ skipped', ht.append ht', ?_, ?_⟩
    · rw [hv', hv, List.append_assoc]
    · rw [hs', hs, List.append_assoc]

end Account

end Traversal

/-! ## 4. Walks and the machine -/

open Traversal (Frame State Steps Fails Tells next)

section Scan

variable {read : Path → Answer} {keyword : Keyword} {file : Path} {n : Nat}
  {run : Run} {lines : List Text} {visited earlier : List Path} {w : Walk}

/-- A walk without a failure closes its file. -/
theorem Completes.steps
    (h : Completes (.steady read) keyword file n run lines visited earlier w)
    (outer : List Frame) (skipped : List SkippedInclude) :
    Steps read keyword ⟨⟨file, n, lines⟩ :: outer, visited, skipped⟩ w.events
      ⟨outer, visited ++ w.visited, skipped ++ w.skipped⟩ := by
  induction h generalizing outer skipped with
  | nil =>
    simp only [Walk.closed, List.append_nil]
    exact .single Traversal.next_nil
  | ordinary hk _ ih =>
    exact .head (Traversal.next_ordinary hk) (ih outer skipped)
  | @skip file n _ _ _ _ _ target _ hk hs hv _ ih =>
    have h := ih outer (skipped ++ [⟨file, n, target⟩])
    rw [List.append_assoc] at h
    exact .head (Traversal.next_skip hk hs hv) h
  | @inline file n _ _ rest _ _ _ _ inner _ hk hs hv hr _ _ ihi iha =>
    have hi := ihi (⟨file, n + 1, rest⟩ :: outer) skipped
    have ha := iha outer (skipped ++ inner.skipped)
    have h := Steps.head (Traversal.next_take hk hs hv hr) (hi.trans ha)
    simp only [List.append_assoc] at h
    exact h

/-- A walk with a failure leads to where the machine stops. -/
theorem Scans.stops
    (h : Scans (.steady read) keyword file n run lines visited earlier w)
    {e : Failure} (hf : w.failure = some e) (outer : List Frame)
    (skipped : List SkippedInclude) :
    ∃ es s last,
      Steps read keyword ⟨⟨file, n, lines⟩ :: outer, visited, skipped⟩ es s ∧
      next read keyword s = .stops last e ∧ w.events = es ++ last := by
  induction h generalizing outer skipped with
  | nil => cases hf
  | ordinary hk _ ih =>
    obtain ⟨es, s, last, hs, hn, he⟩ := ih hf outer skipped
    exact ⟨es, s, last, .head (Traversal.next_ordinary hk) hs, hn, he⟩
  | malformed hk =>
    cases hf
    exact ⟨[], _, [], .refl, Traversal.next_malformed hk, rfl⟩
  | selfInclude hk =>
    cases hf
    exact ⟨[], _, [], .refl, Traversal.next_selfInclude hk, rfl⟩
  | skip hk hs hv _ ih =>
    obtain ⟨es, s, last, hss, hn, he⟩ := ih hf outer (skipped ++ [_])
    exact ⟨_ :: es, s, last, .head (Traversal.next_skip hk hs hv) hss, hn,
      congrArg _ he⟩
  | unread hk hs hv hr =>
    cases hf
    exact ⟨[], _, _, .refl, Traversal.next_unread hk hs hv hr, rfl⟩
  | @innerFailed file n _ _ rest _ _ _ _ _ hk hs hv hr _ _ ih =>
    obtain ⟨es, s, last, hss, hn, he⟩ :=
      ih hf (⟨file, n + 1, rest⟩ :: outer) skipped
    exact ⟨_ :: _ :: es, s, last, .head (Traversal.next_take hk hs hv hr) hss,
      hn, congrArg (_ :: _ :: ·) he⟩
  | @inline file n _ _ rest _ _ _ _ inner _ hk hs hv hr hi hn _ _ iha =>
    rw [Walk.failure_append, Walk.failure_append, hn] at hf
    obtain ⟨es, s, last, hss, hnext, he⟩ := iha hf outer (skipped ++ _)
    -- The file that was brought in is closed before the failure.
    have hi := (hi.completes hn).steps (⟨file, n + 1, rest⟩ :: outer) skipped
    refine ⟨_ :: _ :: (inner.events ++ es), s, last,
      .head (Traversal.next_take hk hs hv hr) (hi.trans hss), hnext, ?_⟩
    rw [Walk.events_append, Walk.events_append, he]
    simp [Walk.entered, openings, Answer.opened]

end Scan

section Top

variable {read : Path → Answer} {keyword : Keyword} {top : Path} {w : Walk}
  (hw : walk? (.steady read) keyword top = some w)

include hw

/-- The events of a walk with a failure are those of the traversal up to the
failure. -/
theorem fails_of_result_eq_error {e : Failure} (hf : w.result = .error e) :
    Fails read keyword top w.events e := by
  have hf := Walk.result_eq_error_iff.1 hf
  obtain ⟨r, hr, rfl⟩ | ⟨lines, inner, hr, hi, rfl⟩ := walk?_eq_some_iff.1 hw
  · cases hf
    exact .unread hr
  · obtain ⟨es, s, last, hs, hn, he⟩ := hi.stops hf [] []
    have h := Fails.stopped hr hs hn
    rw [Walk.events_append, he]
    exact h

end Top

end IncludeFlattener
