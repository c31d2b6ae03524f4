/-
IncludeFlattener.Flattening — a file with everything that it includes, as
one text.

Flattening gives the text in chunks together with an account of it: which
files it is made of and which directives were passed over. If anything goes
wrong on the way there is no text at all, only the first failure
(`flatten_eq_error_iff`). `flatten?` takes any reader and has no value if
the walk never ends; `flatten` takes a source, where every walk ends.
-/
import IncludeFlattener.Flattening.Ending
namespace IncludeFlattener

/-- A flattened text and its account. -/
structure Flattened where
  /-- The text, each piece with its file and line. -/
  chunks : List Chunk
  /-- The files in the text, in the order in which they were taken in. -/
  visited : List Path
  /-- The directives that added nothing. -/
  skipped : List SkippedInclude
  deriving DecidableEq, Repr

/-- The flattened text itself. -/
def Flattened.text (f : Flattened) : Text := Chunk.joined f.chunks

/-- What a walk from the top comes to. -/
def Walk.result (w : Walk) : Except Failure Flattened :=
  match w.failure with
  | some f => .error f
  | none => .ok ⟨w.chunks, w.visited, w.skipped⟩

/-- The flattened text of the file at a path, if the walk ends. -/
def flatten? (reader : Reader) (keyword : Keyword) (path : Path) :
    Option (Except Failure Flattened) :=
  (walk? reader keyword path).map Walk.result

/-- The flattened text of the file at a path of a source. -/
def flatten (source : Source) (keyword : Keyword) (path : Path) :
    Except Failure Flattened :=
  (walk source keyword path).result

theorem Walk.result_eq_ok_iff {w : Walk} {f : Flattened} :
    w.result = .ok f ↔
      w.failure = none ∧ f = ⟨w.chunks, w.visited, w.skipped⟩ := by
  unfold Walk.result
  cases w.failure with
  | none => simp [eq_comm]
  | some e => simp

theorem Walk.result_eq_error_iff {w : Walk} {e : Failure} :
    w.result = .error e ↔ w.failure = some e := by
  unfold Walk.result
  cases w.failure <;> simp

theorem flatten_eq_error_iff {source : Source} {keyword : Keyword}
    {path : Path} {e : Failure} :
    flatten source keyword path = .error e ↔
      (walk source keyword path).failure = some e :=
  Walk.result_eq_error_iff

/-- Where a text comes out, a complete walk through the file at the top has
given it. -/
theorem exists_completes {reader : Reader} {keyword : Keyword} {path : Path}
    {w : Walk} {f : Flattened} (hw : walk? reader keyword path = some w)
    (hf : w.result = .ok f) :
    ∃ lines inner, reader [] path = .ok lines ∧
      Completes reader keyword path 1 .empty lines [Path.collapse path] [path]
        inner ∧
      w = .begun path (.ok lines) ++ inner ∧
      f = ⟨inner.chunks, Path.collapse path :: inner.visited,
        inner.skipped⟩ := by
  obtain ⟨hn, rfl⟩ := Walk.result_eq_ok_iff.1 hf
  obtain ⟨e, -, rfl⟩ | ⟨lines, inner, hr, hi, rfl⟩ := walk?_eq_some_iff.1 hw
  · cases hn
  · exact ⟨lines, inner, hr, hi.completes hn, rfl, rfl⟩

/-- A complete walk through the file at the top gives a text. -/
theorem Completes.flatten?_eq {reader : Reader} {keyword : Keyword}
    {path : Path} {lines : List Text} {inner : Walk}
    (h : Completes reader keyword path 1 .empty lines [Path.collapse path]
      [path] inner)
    (hr : reader [] path = .ok lines) :
    flatten? reader keyword path = some (.ok ⟨inner.chunks,
      Path.collapse path :: inner.visited, inner.skipped⟩) := by
  have hw := walk?_eq_some_iff.2 (.inr ⟨lines, inner, hr, h.scans, rfl⟩)
  rw [flatten?, hw, Option.map_some, Option.some.injEq,
    Walk.result_eq_ok_iff]
  refine ⟨?_, rfl⟩
  rw [Walk.failure_append, h.failure_eq_none]
  rfl

end IncludeFlattener
