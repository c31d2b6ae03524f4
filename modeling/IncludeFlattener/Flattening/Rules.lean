/-
IncludeFlattener.Flattening.Rules — the rules that a walk follows.

`Scans` has one rule for each kind of line: an ordinary line, a directive
that is malformed or names its own file, one whose target was visited
before, and one whose target is read, where the read or the walk through
the target may fail. `scan?_eq_some_iff` says that `Keyword.scan?` has
exactly the walks that the rules give. So a statement about every walk is an
induction on the rules, whatever the reader is. A walk without a failure
follows only four of them; `Completes` has those, so that a statement about
what a complete walk gives need not speak of failures.
-/
import IncludeFlattener.Flattening.Walk
namespace IncludeFlattener

/-- A line of a file names this target. -/
def Directive.Includes (keyword : Keyword) (file : Path) (line : Text)
    (target : Path) : Prop :=
  ∃ quoted, Directive.classify keyword line = .directive quoted ∧
    Path.join file quoted = target

open Directive (classify Includes)

/-- The walk through the rest of a file, rule by rule. -/
inductive Scans (reader : Reader) (keyword : Keyword) :
    Path → Nat → Run → List Text → List Path → List Path → Walk → Prop where
  | nil {file : Path} {n : Nat} {run : Run} {visited earlier : List Path} :
      Scans reader keyword file n run [] visited earlier (.closed run file)
  | ordinary {file : Path} {n : Nat} {run : Run} {line : Text}
      {rest : List Text} {visited earlier : List Path} {after : Walk}
      (hk : classify keyword line = .ordinary)
      (ha : Scans reader keyword file (n + 1) (run.push n line) rest visited
        earlier after) :
      Scans reader keyword file n run (line :: rest) visited earlier after
  | malformed {file : Path} {n : Nat} {run : Run} {line : Text}
      {rest : List Text} {visited earlier : List Path}
      (hk : classify keyword line = .malformed) :
      Scans reader keyword file n run (line :: rest) visited earlier
        (.failed (.malformedDirective file n line))
  | selfInclude {file : Path} {n : Nat} {run : Run} {line : Text}
      {rest : List Text} {visited earlier : List Path}
      (hk : Includes keyword file line (Path.collapse file)) :
      Scans reader keyword file n run (line :: rest) visited earlier
        (.failed (.selfInclude file))
  | skip {file : Path} {n : Nat} {run : Run} {line : Text}
      {rest : List Text} {visited earlier : List Path} {target : Path}
      {after : Walk} (hk : Includes keyword file line target)
      (hs : target ≠ Path.collapse file) (hv : target ∈ visited)
      (ha : Scans reader keyword file (n + 1) .empty rest visited earlier
        after) :
      Scans reader keyword file n run (line :: rest) visited earlier
        (.passed run file n target ++ after)
  | unread {file : Path} {n : Nat} {run : Run} {line : Text}
      {rest : List Text} {visited earlier : List Path} {target : Path}
      {e : ReadFailure} (hk : Includes keyword file line target)
      (hs : target ≠ Path.collapse file) (hv : target ∉ visited)
      (hr : reader earlier target = .error e) :
      Scans reader keyword file n run (line :: rest) visited earlier
        (.entered run file n target (.error e))
  | innerFailed {file : Path} {n : Nat} {run : Run} {line : Text}
      {rest : List Text} {visited earlier : List Path} {target : Path}
      {inside : List Text} {inner : Walk}
      (hk : Includes keyword file line target)
      (hs : target ≠ Path.collapse file) (hv : target ∉ visited)
      (hr : reader earlier target = .ok inside)
      (hi : Scans reader keyword target 1 .empty inside (visited ++ [target])
        (earlier ++ [target]) inner)
      (hf : inner.failure ≠ none) :
      Scans reader keyword file n run (line :: rest) visited earlier
        (.entered run file n target (.ok inside) ++ inner)
  | inline {file : Path} {n : Nat} {run : Run} {line : Text}
      {rest : List Text} {visited earlier : List Path} {target : Path}
      {inside : List Text} {inner after : Walk}
      (hk : Includes keyword file line target)
      (hs : target ≠ Path.collapse file) (hv : target ∉ visited)
      (hr : reader earlier target = .ok inside)
      (hi : Scans reader keyword target 1 .empty inside (visited ++ [target])
        (earlier ++ [target]) inner)
      (hf : inner.failure = none)
      (ha : Scans reader keyword file (n + 1) (.standIn n) rest
        (visited ++ [target] ++ inner.visited)
        (earlier ++ [target] ++ inner.reads) after) :
      Scans reader keyword file n run (line :: rest) visited earlier
        (.entered run file n target (.ok inside) ++ inner ++ after)

section Exact

variable {reader : Reader} {keyword : Keyword} {file : Path} {n : Nat}
  {run : Run} {lines : List Text} {visited earlier : List Path} {w : Walk}

/-- Every walk that the rules give is a value of `Keyword.scan?`. -/
theorem Scans.scan?_eq
    (h : Scans reader keyword file n run lines visited earlier w) :
    keyword.scan? reader file n run lines visited earlier = some w := by
  induction h with
  | nil => rw [Keyword.scan?]
  | ordinary hk _ ih => rw [Keyword.scan?, hk, ← ih]
  | malformed hk => rw [Keyword.scan?, hk]
  | selfInclude hk =>
    obtain ⟨quoted, hk, hj⟩ := hk
    rw [Keyword.scan?, hk]
    simp only [hj, if_true]
  | skip hk hs hv _ ih =>
    obtain ⟨quoted, hk, rfl⟩ := hk
    rw [Keyword.scan?, hk]
    simp only [hs, hv, if_true, if_false, ih]
    rfl
  | unread hk hs hv hr =>
    obtain ⟨quoted, hk, rfl⟩ := hk
    rw [Keyword.scan?, hk]
    simp only [hs, hv, if_false, hr]
  | innerFailed hk hs hv hr _ hf ih =>
    obtain ⟨quoted, hk, rfl⟩ := hk
    rw [Keyword.scan?, hk]
    simp only [hs, hv, if_false, hr, ih, Option.bind_eq_bind,
      Option.bind_some, Option.isSome_iff_ne_none.2 hf, if_true]
    rfl
  | inline hk hs hv hr _ hf _ ihi iha =>
    obtain ⟨quoted, hk, rfl⟩ := hk
    rw [Keyword.scan?, hk]
    simp only [hs, hv, if_false, hr, ihi, iha, Option.bind_eq_bind,
      Option.bind_some, hf, Option.isSome_none, Bool.false_eq_true]
    rfl

/-- Every value of `Keyword.scan?` is a walk by the rules. -/
theorem Scans.of_scan?_eq
    (h : keyword.scan? reader file n run lines visited earlier = some w) :
    Scans reader keyword file n run lines visited earlier w := by
  -- The rules hold of every approximation of `Keyword.scan?`, so of its limit.
  refine Keyword.scan?.partial_correctness keyword reader
    (Scans reader keyword) ?_ file n run lines visited earlier w h
  clear h
  intro scan ih file n run lines visited earlier w h
  split at h
  · cases h
    exact .nil
  · split at h
    · rename_i hk
      exact .ordinary hk (ih _ _ _ _ _ _ _ h)
    · rename_i hk
      cases h
      exact .malformed hk
    · rename_i quoted hk
      dsimp only at h
      split at h
      · rename_i hs
        cases h
        exact .selfInclude ⟨quoted, hk, hs⟩
      · rename_i hs
        split at h
        · rename_i hv
          obtain ⟨after, ha, h⟩ := Option.bind_eq_some_iff.1 h
          cases h
          exact .skip ⟨quoted, hk, rfl⟩ hs hv (ih _ _ _ _ _ _ _ ha)
        · rename_i hv
          split at h
          · rename_i hr
            cases h
            exact .unread ⟨quoted, hk, rfl⟩ hs hv hr
          · rename_i hr
            obtain ⟨inner, hi, h⟩ := Option.bind_eq_some_iff.1 h
            have hi := ih _ _ _ _ _ _ _ hi
            split at h
            · rename_i hf
              cases h
              exact .innerFailed ⟨quoted, hk, rfl⟩ hs hv hr hi
                (Option.isSome_iff_ne_none.1 hf)
            · rename_i hf
              obtain ⟨after, ha, h⟩ := Option.bind_eq_some_iff.1 h
              cases h
              exact .inline ⟨quoted, hk, rfl⟩ hs hv hr hi
                (Option.not_isSome_iff_eq_none.1 hf) (ih _ _ _ _ _ _ _ ha)

theorem scan?_eq_some_iff :
    keyword.scan? reader file n run lines visited earlier = some w ↔
      Scans reader keyword file n run lines visited earlier w :=
  ⟨Scans.of_scan?_eq, Scans.scan?_eq⟩

/-- A walk fails at once, or it is the walk through the lines of the path at
which it starts. -/
theorem walk?_eq_some_iff {path : Path} :
    walk? reader keyword path = some w ↔
      (∃ e, reader [] path = .error e ∧ w = .begun path (.error e)) ∨
      (∃ lines inner, reader [] path = .ok lines ∧
        Scans reader keyword path 1 .empty lines [Path.collapse path] [path]
          inner ∧
        w = .begun path (.ok lines) ++ inner) := by
  unfold walk?
  cases hr : reader [] path with
  | error e => simp [eq_comm (b := w)]
  | ok lines =>
    simp [Option.bind_eq_some_iff, scan?_eq_some_iff, eq_comm (b := w)]

end Exact

/-! ## Complete walks -/

/-- A walk without a failure, rule by rule. -/
inductive Completes (reader : Reader) (keyword : Keyword) :
    Path → Nat → Run → List Text → List Path → List Path → Walk → Prop where
  | nil {file : Path} {n : Nat} {run : Run} {visited earlier : List Path} :
      Completes reader keyword file n run [] visited earlier
        (.closed run file)
  | ordinary {file : Path} {n : Nat} {run : Run} {line : Text}
      {rest : List Text} {visited earlier : List Path} {after : Walk}
      (hk : classify keyword line = .ordinary)
      (ha : Completes reader keyword file (n + 1) (run.push n line) rest
        visited earlier after) :
      Completes reader keyword file n run (line :: rest) visited earlier after
  | skip {file : Path} {n : Nat} {run : Run} {line : Text}
      {rest : List Text} {visited earlier : List Path} {target : Path}
      {after : Walk} (hk : Includes keyword file line target)
      (hs : target ≠ Path.collapse file) (hv : target ∈ visited)
      (ha : Completes reader keyword file (n + 1) .empty rest visited earlier
        after) :
      Completes reader keyword file n run (line :: rest) visited earlier
        (.passed run file n target ++ after)
  | inline {file : Path} {n : Nat} {run : Run} {line : Text}
      {rest : List Text} {visited earlier : List Path} {target : Path}
      {inside : List Text} {inner after : Walk}
      (hk : Includes keyword file line target)
      (hs : target ≠ Path.collapse file) (hv : target ∉ visited)
      (hr : reader earlier target = .ok inside)
      (hi : Completes reader keyword target 1 .empty inside
        (visited ++ [target]) (earlier ++ [target]) inner)
      (ha : Completes reader keyword file (n + 1) (.standIn n) rest
        (visited ++ [target] ++ inner.visited)
        (earlier ++ [target] ++ inner.reads) after) :
      Completes reader keyword file n run (line :: rest) visited earlier
        (.entered run file n target (.ok inside) ++ inner ++ after)

section Complete

variable {reader : Reader} {keyword : Keyword} {file : Path} {n : Nat}
  {run : Run} {lines : List Text} {visited earlier : List Path} {w : Walk}

theorem Completes.failure_eq_none
    (h : Completes reader keyword file n run lines visited earlier w) :
    w.failure = none := by
  induction h with
  | nil => rfl
  | ordinary _ _ ih => exact ih
  | skip _ _ _ _ ih => exact ih
  | inline _ _ _ _ _ _ ihi iha =>
    exact Option.or_eq_none_iff.2 ⟨Option.or_eq_none_iff.2 ⟨rfl, ihi⟩, iha⟩

theorem Completes.scans
    (h : Completes reader keyword file n run lines visited earlier w) :
    Scans reader keyword file n run lines visited earlier w := by
  induction h with
  | nil => exact .nil
  | ordinary hk _ ih => exact .ordinary hk ih
  | skip hk hs hv _ ih => exact .skip hk hs hv ih
  | inline hk hs hv hr hi _ ihi iha =>
    exact .inline hk hs hv hr ihi hi.failure_eq_none iha

/-- Each part of a walk without a failure is one itself. -/
theorem Scans.completes
    (h : Scans reader keyword file n run lines visited earlier w)
    (hf : w.failure = none) :
    Completes reader keyword file n run lines visited earlier w := by
  induction h with
  | nil => exact .nil
  | ordinary hk _ ih => exact .ordinary hk (ih hf)
  | malformed => cases hf
  | selfInclude => cases hf
  | skip hk hs hv _ ih => exact .skip hk hs hv (ih hf)
  | unread => cases hf
  | innerFailed _ _ _ _ _ hn => exact absurd hf hn
  | inline hk hs hv hr _ hn _ ihi iha =>
    exact .inline hk hs hv hr (ihi hn) (iha (Option.or_eq_none_iff.1 hf).2)

end Complete

end IncludeFlattener
