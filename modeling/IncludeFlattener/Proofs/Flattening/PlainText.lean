/-
IncludeFlattener.Proofs.Flattening.PlainText — flattening builds the text
that the plain algorithm builds.

The plain algorithm knows no chunks. It copies the lines of a file behind
the text so far, and where a directive stands it resolves the target and
puts the whole text of it there, and an empty line. A file is resolved
into a text of its own, so a file that includes another one simply waits.

A walk has that text in two places: in the chunks that are closed, and in
the run that each waiting file has open. `Scans.lines?_eq` relates the two:
the text so far is what was closed before, followed by the open run.
`Progress.after` adds to the marks what a walk adds to them. Both hold
rule by rule, also where the walk fails, because a failure drops the text.
-/
import IncludeFlattener.Flattening
namespace IncludeFlattener

/-! ## 1. The plain algorithm -/

namespace PlainText

/-- What the files of one call share. -/
structure Progress where
  /-- The files that were taken in. -/
  visited : List Path
  skipped : List SkippedInclude
  /-- The paths that were read. -/
  reads : List Path

/-- What comes of a file: a failure, or its text and the progress made. -/
abbrev Outcome := Except Failure (Text × Progress)

namespace Progress

def reading (s : Progress) (path : Path) : Progress :=
  { s with reads := s.reads ++ [path] }

def marking (s : Progress) (target : Path) : Progress :=
  { s with visited := s.visited ++ [target] }

def skipping (s : Progress) (directive : SkippedInclude) : Progress :=
  { s with skipped := s.skipped ++ [directive] }

end Progress

mutual

/-- The text of the file at a path. -/
def Progress.file? (s : Progress) (reader : Reader) (keyword : Keyword)
    (path : Path) : Option Outcome :=
  match reader s.reads path with
  | .error e => some (.error (.ofRead path e))
  | .ok lines =>
    s.reading path |>.lines? reader keyword path 1 lines []
partial_fixpoint

/-- The text of a file, of which `n` is the number of the next line and
`text` the text before it. -/
def Progress.lines? (s : Progress) (reader : Reader) (keyword : Keyword)
    (file : Path) (n : Nat) (lines : List Text) (text : Text) :
    Option Outcome :=
  match lines with
  | [] => some (.ok (text, s))
  | line :: rest =>
    match Directive.classify keyword line with
    | .ordinary =>
      s |>.lines? reader keyword file (n + 1) rest (text ++ line ++ ['\n'])
    | .malformed => some (.error (.malformedDirective file n line))
    | .directive quoted =>
      let target := Path.join file quoted
      if target = Path.collapse file then some (.error (.selfInclude file))
      else if target ∈ s.visited then
        s.skipping ⟨file, n, target⟩
          |>.lines? reader keyword file (n + 1) rest text
      else do
        let included ← s.marking target |>.file? reader keyword target
        match included with
        | .error e => return .error e
        | .ok (inside, s) =>
          s |>.lines? reader keyword file (n + 1) rest
            (text ++ inside ++ ['\n'])
partial_fixpoint

end

/-- The text of the file at the top, the files in it, and the directives
that were passed over. -/
def flatten? (reader : Reader) (keyword : Keyword) (top : Path) :
    Option (Except Failure (Text × List Path × List SkippedInclude)) :=
  ((⟨[Path.collapse top], [], []⟩ : Progress).file? reader keyword top).map
    fun outcome => outcome.map fun (text, s) => (text, s.visited, s.skipped)

section Steps

variable {reader : Reader} {keyword : Keyword} {file target : Path} {n : Nat}
  {line text : Text} {rest : List Text} {s : Progress}

theorem lines?_passed (hk : Directive.Includes keyword file line target)
    (hs : target ≠ Path.collapse file) (hv : target ∈ s.visited) :
    s.lines? reader keyword file n (line :: rest) text
      = (s.skipping ⟨file, n, target⟩).lines? reader keyword file (n + 1) rest
          text := by
  obtain ⟨quoted, hk, rfl⟩ := hk
  rw [Progress.lines?, hk]
  simp only [hs, hv, if_true, if_false]

theorem lines?_of_file?_eq_error {e : Failure}
    (hk : Directive.Includes keyword file line target)
    (hs : target ≠ Path.collapse file) (hv : target ∉ s.visited)
    (ht : (s.marking target).file? reader keyword target
      = some (.error e)) :
    s.lines? reader keyword file n (line :: rest) text
      = some (.error e) := by
  obtain ⟨quoted, hk, rfl⟩ := hk
  rw [Progress.lines?, hk]
  simp only [hs, hv, if_false, ht]
  rfl

theorem lines?_of_file?_eq_ok {inside : Text} {s' : Progress}
    (hk : Directive.Includes keyword file line target)
    (hs : target ≠ Path.collapse file) (hv : target ∉ s.visited)
    (ht : (s.marking target).file? reader keyword target
      = some (.ok (inside, s'))) :
    s.lines? reader keyword file n (line :: rest) text
      = s'.lines? reader keyword file (n + 1) rest
          (text ++ inside ++ ['\n']) := by
  obtain ⟨quoted, hk, rfl⟩ := hk
  rw [Progress.lines?, hk]
  simp only [hs, hv, if_false, ht]
  rfl

theorem file?_of_read_eq_ok {lines : List Text}
    (hr : reader s.reads target = .ok lines) :
    s.file? reader keyword target
      = (s.reading target).lines? reader keyword target 1 lines [] := by
  rw [Progress.file?, hr]

theorem file?_of_read_eq_error {e : ReadFailure}
    (hr : reader s.reads target = .error e) :
    s.file? reader keyword target = some (.error (.ofRead target e)) := by
  rw [Progress.file?, hr]

end Steps

end PlainText

/-! ## 2. The text that a walk adds -/

open PlainText (Progress Outcome)

/-- The progress behind a walk. -/
def PlainText.Progress.after (s : Progress) (w : Walk) : Progress where
  visited := s.visited ++ w.visited
  skipped := s.skipped ++ w.skipped
  reads := s.reads ++ w.reads

/-- What a walk means to the text before it. -/
def Walk.outcome (w : Walk) (text : Text) (s : Progress) : Outcome :=
  match w.failure with
  | some e => .error e
  | none => .ok (text ++ Chunk.joined w.chunks, s.after w)

namespace Walk

variable {a b w : Walk} {text : Text} {s : Progress} {e : Failure}

theorem outcome_of_failure (h : w.failure = some e) :
    w.outcome text s = .error e := by
  rw [outcome, h]

theorem outcome_of_complete (h : w.failure = none) :
    w.outcome text s = .ok (text ++ Chunk.joined w.chunks, s.after w) := by
  rw [outcome, h]

/-- What follows a walk without a failure starts from its text. -/
theorem outcome_append (h : a.failure = none) :
    (a ++ b).outcome text s
      = b.outcome (text ++ Chunk.joined a.chunks) (s.after a) := by
  unfold outcome
  rw [failure_append, h, Option.none_or]
  cases b.failure with
  | some e => rfl
  | none =>
    simp [PlainText.Progress.after, Chunk.joined, List.append_assoc]

end Walk

/-! ## 3. The simulation -/

section Scan

variable {reader : Reader} {keyword : Keyword} {file : Path} {n : Nat}
  {run : Run} {lines : List Text} {visited earlier : List Path} {w : Walk}

theorem Run.endLines_push (r : Run) (n : Nat) (line : Text) :
    Text.endLines (r.push n line).lines
      = Text.endLines r.lines ++ line ++ ['\n'] := by
  unfold Run.push
  split
  · rename_i h
    simp [h]
  · simp [Text.endLines_append]

/-- The plain algorithm, with the open run behind its text, gives what the
walk gives. -/
theorem Scans.lines?_eq
    (h : Scans reader keyword file n run lines visited earlier w)
    (text : Text) (skipped : List SkippedInclude) :
    (⟨visited, skipped, earlier⟩ : Progress).lines? reader keyword file n
        lines (text ++ Text.endLines run.lines)
      = some (w.outcome text ⟨visited, skipped, earlier⟩) := by
  induction h generalizing text skipped with
  | nil =>
    rw [Progress.lines?, Walk.outcome_of_complete rfl, Walk.closed,
      Run.joined_close]
    simp [Progress.after]
  | @ordinary _ n run line _ _ _ _ hk _ ih =>
    have ih := ih text skipped
    rw [Run.endLines_push, ← List.append_assoc, ← List.append_assoc] at ih
    rw [Progress.lines?, hk]
    exact ih
  | malformed hk =>
    rw [Progress.lines?, hk, Walk.outcome_of_failure rfl]
  | selfInclude hk =>
    obtain ⟨quoted, hk, hj⟩ := hk
    rw [Progress.lines?, hk, Walk.outcome_of_failure rfl]
    simp only [hj, if_true]
  | @skip file n run line rest visited earlier target after hk hs hv _ ih =>
    have ih := ih (text ++ Text.endLines run.lines)
      (skipped ++ [⟨file, n, target⟩])
    rw [PlainText.lines?_passed hk hs hv, Walk.outcome_append rfl,
      Walk.passed, Run.joined_close]
    simpa [Progress.after, Progress.skipping, Run.empty] using ih
  | unread hk hs hv hr =>
    rw [Walk.outcome_of_failure rfl]
    exact PlainText.lines?_of_file?_eq_error hk hs hv
      (PlainText.file?_of_read_eq_error hr)
  | innerFailed hk hs hv hr _ hf ih =>
    obtain ⟨e, he⟩ := Option.ne_none_iff_exists'.1 hf
    have ih := ih [] skipped
    rw [Walk.outcome_of_failure he] at ih
    rw [Walk.outcome_append rfl, Walk.outcome_of_failure he]
    refine PlainText.lines?_of_file?_eq_error hk hs hv ?_
    rw [PlainText.file?_of_read_eq_ok hr]
    exact ih
  | @inline file n run line rest visited earlier target inside inner after hk
      hs hv hr _ hf _ ihi iha =>
    have ihi := ihi [] skipped
    rw [Walk.outcome_of_complete hf] at ihi
    have iha := iha (text ++ Text.endLines run.lines
      ++ Chunk.joined inner.chunks) (skipped ++ inner.skipped)
    have htarget : ((⟨visited, skipped, earlier⟩ : Progress).marking
        target).file? reader keyword target
        = some (.ok (Chunk.joined inner.chunks, ⟨visited ++ [target]
            ++ inner.visited, skipped ++ inner.skipped, earlier ++ [target]
            ++ inner.reads⟩)) := by
      rw [PlainText.file?_of_read_eq_ok hr]
      exact ihi
    rw [PlainText.lines?_of_file?_eq_ok hk hs hv htarget, Walk.append_assoc,
      Walk.outcome_append rfl, Walk.outcome_append hf, Walk.entered,
      Run.joined_close]
    simpa [Progress.after, Run.standIn] using iha

end Scan

/-- The plain algorithm gives the text of the walk from the top. -/
theorem file?_eq_outcome {reader : Reader} {keyword : Keyword} {top : Path}
    {w : Walk} (hw : walk? reader keyword top = some w) :
    (⟨[Path.collapse top], [], []⟩ : Progress).file? reader keyword top
      = some (w.outcome [] ⟨[], [], []⟩) := by
  obtain ⟨e, hr, rfl⟩ | ⟨lines, inner, hr, hi, rfl⟩ :=
    walk?_eq_some_iff.1 hw
  · rw [PlainText.file?_of_read_eq_error hr, Walk.outcome_of_failure rfl]
  · rw [PlainText.file?_of_read_eq_ok hr, Walk.outcome_append rfl]
    exact hi.lines?_eq [] []

/-- What is left of a flattened text without its chunks. -/
def Flattened.report (f : Flattened) :
    Text × List Path × List SkippedInclude :=
  (f.text, f.visited, f.skipped)

theorem Walk.map_outcome (w : Walk) :
    (w.outcome [] ⟨[], [], []⟩).map
        (fun (text, s) => (text, s.visited, s.skipped))
      = w.result.map Flattened.report := by
  unfold Walk.outcome Walk.result
  cases w.failure with
  | some e => rfl
  | none => simp [Except.map, Flattened.report, Flattened.text, Progress.after]

/-- **The chunks make up the plain text.** Flattening ends, and it gives the
text, the files and the skipped directives that the plain algorithm gives,
or the failure that the plain algorithm gives. -/
theorem flatten?_eq_plain {reader : Reader} {readable : List Path}
    (hr : reader.ReadsOnly readable) (keyword : Keyword) (top : Path) :
    ∃ result, flatten? reader keyword top = some result ∧
      PlainText.flatten? reader keyword top
        = some (result.map Flattened.report) := by
  obtain ⟨w, hw⟩ := exists_walk?_eq hr keyword top
  refine ⟨w.result, by rw [flatten?, hw]; rfl, ?_⟩
  rw [PlainText.flatten?, file?_eq_outcome hw, Option.map_some,
    Walk.map_outcome]

/-- The file `a` includes `b`, whose lines are the paths that were read. -/
def readsSoFar : Reader
  | _, ['a'] => .ok ["//#include \"b\"".toList, ['x']]
  | earlier, ['b'] => .ok earlier
  | _, _ => .error .missing

/-- The plain text of `a` holds the path of `a`, which was read before `b`. -/
theorem flatten?_eq_plain_readsSoFar :
    readsSoFar.ReadsOnly [['a'], ['b']] ∧
    PlainText.flatten? readsSoFar .default ['a']
      = some (.ok (['a', '\n', '\n', 'x', '\n'], [['a'], ['b']], [])) ∧
    ∃ result, flatten? readsSoFar .default ['a'] = some result ∧
      PlainText.flatten? readsSoFar .default ['a']
        = some (result.map Flattened.report) := by
  have hr : readsSoFar.ReadsOnly [['a'], ['b']] := by
    intro earlier path lines h
    unfold readsSoFar at h
    split at h
    · simp
    · simp
    · cases h
  refine ⟨hr, ?_, flatten?_eq_plain hr .default ['a']⟩
  cbv

end IncludeFlattener
