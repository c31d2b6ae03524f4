/-
IncludeFlattener.Proofs.Flattening.Contribution — what an included file adds
to a text.

A file adds lines of its own and of the files that it refers to, directly or
through others, unless they were visited before. So what it adds depends on
the visited paths only as far as it can refer to them (`SameWithin`), and
not on anything else that the walk did before: `Scans.of_sameWithin` moves a
walk from one list of visited paths to another. The two lists change along
the walk, but in the same way, for each target is marked in both or in
neither.

A file that shares no file with what came before therefore adds what it
gives on its own. What it adds lies in one piece (`TakesIn`), so the text of
the whole holds its text, and the account of the whole its account.
-/
import IncludeFlattener.Proofs.Flattening.Sites
import Mathlib.Logic.Relation
namespace IncludeFlattener

open Directive (classify Includes)
open Relation (ReflTransGen TransGen)

/-! ## 1. Files that a file refers to -/

/-- A directive of the file read at `a` has the target `b`. -/
def Refers (read : Path → Answer) (keyword : Keyword) (a b : Path) : Prop :=
  ∃ lines line, read a = .ok lines ∧ line ∈ lines ∧
    Includes keyword a line b

/-- The lines are lines of the file that is read at a path. -/
def LinesOf (read : Path → Answer) (file : Path) (lines : List Text) : Prop :=
  ∃ all, read file = .ok all ∧ lines ⊆ all

namespace LinesOf

variable {read : Path → Answer} {keyword : Keyword} {file target : Path}
  {line : Text} {rest : List Text}

theorem whole {lines : List Text} (h : read file = .ok lines) :
    LinesOf read file lines := ⟨lines, h, fun _ hm => hm⟩

theorem tail (h : LinesOf read file (line :: rest)) :
    LinesOf read file rest := by
  obtain ⟨all, hr, hsub⟩ := h
  exact ⟨all, hr, (List.cons_subset.1 hsub).2⟩

/-- A file refers to the targets of its lines. -/
theorem refers (h : LinesOf read file (line :: rest))
    (hk : Includes keyword file line target) :
    Refers read keyword file target := by
  obtain ⟨all, hr, hsub⟩ := h
  exact ⟨all, line, hr, (List.cons_subset.1 hsub).1, hk⟩

end LinesOf

/-- Two lists hold the same of the paths that a file refers to, directly or
through the files that it includes. -/
def SameWithin (read : Path → Answer) (keyword : Keyword) (file : Path)
    (visited visited' : List Path) : Prop :=
  ∀ key, TransGen (Refers read keyword) file key →
    (key ∈ visited ↔ key ∈ visited')

namespace SameWithin

variable {read : Path → Answer} {keyword : Keyword} {file target : Path}
  {visited visited' : List Path}

theorem symm (h : SameWithin read keyword file visited visited') :
    SameWithin read keyword file visited' visited :=
  fun key hk => (h key hk).symm

theorem mark (h : SameWithin read keyword file visited visited')
    (more : List Path) :
    SameWithin read keyword file (visited ++ more) (visited' ++ more) := by
  intro key hk
  rw [List.mem_append, List.mem_append, h key hk]

theorem descend (h : SameWithin read keyword file visited visited')
    (ht : Refers read keyword file target) :
    SameWithin read keyword target visited visited' :=
  fun key hk => h key (hk.head ht)

/-- Paths that the file cannot refer to make no difference. -/
theorem of_disjoint
    (h : ∀ key, ReflTransGen (Refers read keyword) file key →
      key ∉ visited) :
    SameWithin read keyword file (visited ++ visited') visited' := by
  intro key hk
  have hn := h key hk.to_reflTransGen
  simp [hn]

end SameWithin

section Scan

variable {read : Path → Answer} {keyword : Keyword}

/-- A walk through lines of a file is the same, whatever else was visited and
read before. -/
theorem Scans.of_sameWithin {file : Path} {n : Nat} {run : Run}
    {lines : List Text} {visited earlier : List Path} {w : Walk}
    (h : Scans (.steady read) keyword file n run lines visited earlier w)
    (hl : LinesOf read file lines) {visited' : List Path}
    (hs : SameWithin read keyword file visited visited')
    (earlier' : List Path) :
    Scans (.steady read) keyword file n run lines visited' earlier' w := by
  induction h generalizing visited' earlier' with
  | nil => exact .nil
  | malformed hk => exact .malformed hk
  | selfInclude hk => exact .selfInclude hk
  | ordinary hk _ ih => exact .ordinary hk (ih hl.tail hs earlier')
  | skip hk hne hv _ ih =>
    have ht := hl.refers hk
    exact .skip hk hne ((hs _ (.single ht)).1 hv) (ih hl.tail hs earlier')
  | unread hk hne hv hread =>
    have ht := hl.refers hk
    exact .unread hk hne (mt (hs _ (.single ht)).2 hv) hread
  | innerFailed hk hne hv hread _ hf ih =>
    have ht := hl.refers hk
    exact .innerFailed hk hne (mt (hs _ (.single ht)).2 hv) hread
      (ih (.whole hread) ((hs.descend ht).mark _) _) hf
  | inline hk hne hv hread _ hf _ ihi iha =>
    have ht := hl.refers hk
    exact .inline hk hne (mt (hs _ (.single ht)).2 hv) hread
      (ihi (.whole hread) ((hs.descend ht).mark _) _) hf
      (iha hl.tail ((hs.mark _).mark _) _)

theorem scan?_eq_of_sameWithin {file : Path} {lines : List Text}
    (hr : read file = .ok lines) {visited visited' : List Path}
    (hs : SameWithin read keyword file visited visited')
    (earlier earlier' : List Path) :
    keyword.scan? (.steady read) file 1 .empty lines visited earlier
      = keyword.scan? (.steady read) file 1 .empty lines visited'
          earlier' := by
  refine Option.ext fun w => ?_
  rw [scan?_eq_some_iff, scan?_eq_some_iff]
  constructor
  · intro h
    exact h.of_sameWithin (.whole hr) hs earlier'
  · intro h
    exact h.of_sameWithin (.whole hr) hs.symm earlier

end Scan

/-! ## 2. Where a file is taken in -/

/-- The walk `w` took the target of a directive in: it had added `before` when
it came to the directive, closed the open run, and added `inner` in the file
and `after` behind it. -/
structure Walk.TakesIn (w : Walk) (read : Path → Answer) (keyword : Keyword)
    (s : Site) (before : Walk) (run : Run) (inside : List Text)
    (inner after : Walk) : Prop where
  eq_append : w = before ++ .entered run s.file s.line s.target (.ok inside)
    ++ inner ++ after
  read_eq : read s.target = .ok inside
  collapse_eq : Path.collapse s.target = s.target
  not_mem : s.target ∉ before.visited
  completes : Completes (.steady read) keyword s.target 1 .empty inside
    (before.visited ++ [s.target]) (before.reads ++ [s.target]) inner

theorem Walk.TakesIn.append {w : Walk} {read : Path → Answer}
    {keyword : Keyword} {s : Site} {before : Walk} {run : Run}
    {inside : List Text} {inner after : Walk}
    (h : w.TakesIn read keyword s before run inside inner after)
    (more : Walk) :
    (w ++ more).TakesIn read keyword s before run inside inner
      (after ++ more) where
  eq_append := by rw [h.eq_append, Walk.append_assoc]
  read_eq := h.read_eq
  collapse_eq := h.collapse_eq
  not_mem := h.not_mem
  completes := h.completes

/-- Behind what a walk has added before, each directive that brought a file
in took it in somewhere. -/
theorem Completes.exists_takesIn {read : Path → Answer} {keyword : Keyword}
    {file : Path} {n : Nat} {run : Run} {lines : List Text}
    {visited earlier : List Path} {w before : Walk}
    (h : Completes (.steady read) keyword file n run lines visited earlier w)
    (hv : before.visited = visited) (hr : before.reads = earlier) :
    ∀ s ∈ w.brought, ∃ before' run' inside inner after, (before ++ w).TakesIn
      read keyword s before' run' inside inner after := by
  induction h generalizing before with
  | nil =>
    intro s hs
    cases hs
  | ordinary _ _ ih => exact ih hv hr
  | skip _ _ _ _ ih =>
    subst hv hr
    rw [← Walk.append_assoc]
    exact ih (by simp) (by simp)
  | @inline file n run line rest visited earlier target inside inner after hk
      _ hm hread hi _ ihi iha =>
    subst hv hr
    rw [← Walk.append_assoc]
    intro s hs
    rw [Walk.brought_append, Walk.brought_append, Walk.brought_entered,
      List.mem_append, List.mem_append, List.mem_singleton] at hs
    obtain (rfl | hs) | hs := hs
    · rw [← Walk.append_assoc]
      exact ⟨before, run, inside, inner, after, rfl, hread, hk.collapse_eq,
        hm, hi⟩
    · rw [← Walk.append_assoc]
      obtain ⟨before', run', inside', inner', after', ht⟩ :=
        @ihi (before ++ .entered run file n target (.ok inside)) (by simp)
          (by simp) s hs
      exact ⟨before', run', inside', inner', after' ++ after, ht.append after⟩
    · exact iha (by simp) (by simp) s hs

/-! ## 3. A file on its own -/

/-- The text `g` stands in the text `f` in one piece, and so does its account
in that of `f`; `chunk` is the run of lines that was open before it. -/
structure Flattened.StandsIn (g f : Flattened) (before : Walk)
    (chunk : List Chunk) (after : Walk) : Prop where
  chunks_eq : f.chunks = before.chunks ++ chunk ++ g.chunks ++ after.chunks
  visited_eq : f.visited = before.visited ++ g.visited ++ after.visited
  skipped_eq : f.skipped = before.skipped ++ g.skipped ++ after.skipped

namespace Walk.TakesIn

variable {read : Path → Answer} {keyword : Keyword} {w before inner after :
  Walk} {s : Site} {run : Run} {inside : List Text} {f : Flattened}

theorem standsIn
    (h : w.TakesIn read keyword s before run inside inner after)
    (hf : w.result = .ok f) :
    Flattened.StandsIn ⟨inner.chunks, s.target :: inner.visited,
      inner.skipped⟩ f before (run.close s.file) after := by
  obtain ⟨-, rfl⟩ := Walk.result_eq_ok_iff.1 hf
  have hw := h.eq_append
  constructor
  · simp [hw]
  · simp [hw]
  · simp [hw]

/-- Where nothing was visited that the file refers to, it gives on its own
what it added. -/
theorem flatten?_eq
    (h : w.TakesIn read keyword s before run inside inner after)
    (hd : ∀ key, ReflTransGen (Refers read keyword) s.target key →
      key ∉ before.visited) :
    flatten? (.steady read) keyword s.target = some (.ok ⟨inner.chunks,
      s.target :: inner.visited, inner.skipped⟩) := by
  have hi := h.completes.scans.of_sameWithin (.whole h.read_eq)
    (.of_disjoint hd) [s.target]
  have hc : Completes (.steady read) keyword s.target 1 .empty inside
      [Path.collapse s.target] [s.target] inner := by
    rw [h.collapse_eq]
    exact hi.completes h.completes.failure_eq_none
  have hg := hc.flatten?_eq h.read_eq
  rwa [h.collapse_eq] at hg

end Walk.TakesIn

/-- Each directive that brought a file into a text took it in somewhere. -/
theorem exists_takesIn_of_result_eq_ok {read : Path → Answer}
    {keyword : Keyword} {top : Path} {w : Walk} {f : Flattened}
    (hw : walk? (.steady read) keyword top = some w)
    (hf : w.result = .ok f) :
    ∀ s ∈ w.brought, ∃ before run inside inner after,
      w.TakesIn read keyword s before run inside inner after := by
  obtain ⟨lines, inner, -, hi, rfl, -⟩ := exists_completes hw hf
  exact hi.exists_takesIn rfl rfl

/-- **What an included file adds.** Each directive that brought a file into a
text added it in one piece. If no file was visited before that the included
one can refer to, the piece is the text that this one gives on its own, with
its account. And what a file adds never depends on more of the visited paths
than those that it can refer to. -/
theorem included_file_alone (read : Path → Answer) (keyword : Keyword) :
    (∀ top w f, walk? (.steady read) keyword top = some w →
      w.result = .ok f →
      (∀ s ∈ w.brought, ∃ before run inside inner after,
        w.TakesIn read keyword s before run inside inner after) ∧
      ∀ s before run inside inner after,
        w.TakesIn read keyword s before run inside inner after →
        (∀ key, ReflTransGen (Refers read keyword) s.target key →
          key ∉ before.visited) →
        ∃ g, flatten? (.steady read) keyword s.target = some (.ok g) ∧
          g = ⟨inner.chunks, s.target :: inner.visited, inner.skipped⟩ ∧
          g.StandsIn f before (run.close s.file) after) ∧
    ∀ file lines, read file = .ok lines →
      ∀ visited visited' earlier earlier' : List Path,
        SameWithin read keyword file visited visited' →
        keyword.scan? (.steady read) file 1 .empty lines visited earlier
          = keyword.scan? (.steady read) file 1 .empty lines visited'
              earlier' := by
  constructor
  · intro top w f hw hf
    refine ⟨exists_takesIn_of_result_eq_ok hw hf, ?_⟩
    intro s before run inside inner after ht hd
    exact ⟨_, ht.flatten?_eq hd, rfl, ht.standsIn hf⟩
  · intro file lines hr visited visited' earlier earlier' hs
    exact scan?_eq_of_sameWithin hr hs earlier earlier'

/-! ## Two files apart from the one that includes them -/

/-- The file `a` includes `b` and then `c`; `b` and `c` include each
other. -/
def apart : Path → Answer
  | ['a'] => .ok [['x'], ['#', '"', 'b', '"'], ['#', '"', 'c', '"']]
  | ['b'] => .ok [['#', '"', 'c', '"'], ['y']]
  | ['c'] => .ok [['z'], ['#', '"', 'b', '"']]
  | _ => .error .missing

/-- What `b` adds. -/
def apartInner : Walk where
  reads := [['c']]
  events := [.inlining ['c'] ['b'] 1, .reading ['c'], .skipping ['b'] ['c'] 2]
  visited := [['c']]
  skipped := [⟨['c'], 2, ['b']⟩]
  chunks := [⟨['z', '\n'], ['c'], 0⟩, ⟨['\n', 'y', '\n'], ['b'], 0⟩]

/-- What comes behind `b`. -/
def apartAfter : Walk where
  events := [.skipping ['c'] ['a'] 3]
  skipped := [⟨['a'], 3, ['c']⟩]
  chunks := [⟨['\n'], ['a'], 1⟩]

/-- The walk from `a`. -/
def apartWalk : Walk :=
  .begun ['a'] (apart ['a']) ++ .entered ⟨1, [['x']]⟩ ['a'] 2 ['b']
    (apart ['b']) ++ apartInner ++ apartAfter

/-- From `b`, directives lead to `b` and `c` only. -/
theorem refers_apart {key : Path}
    (h : ReflTransGen (Refers apart hash) ['b'] key) :
    key = ['b'] ∨ key = ['c'] := by
  induction h with
  | refl => exact .inl rfl
  | @tail file target _ ht ih =>
    obtain ⟨lines, line, hr, hl, quoted, hk, rfl⟩ := ht
    rcases ih with rfl | rfl
    · cases hr
      rcases List.mem_pair.1 hl with rfl | rfl
      · cases hk
        exact .inr rfl
      · cases hk
    · cases hr
      rcases List.mem_pair.1 hl with rfl | rfl
      · cases hk
      · cases hk
        exact .inl rfl

/-- The walk took `b` in before it had visited anything but `a`. -/
theorem takesIn_apart : apartWalk.TakesIn apart hash ⟨['a'], 2, ['b']⟩
    (.begun ['a'] (apart ['a'])) ⟨1, [['x']]⟩ [['#', '"', 'c', '"'], ['y']]
    apartInner apartAfter where
  eq_append := rfl
  read_eq := rfl
  collapse_eq := rfl
  not_mem := by decide
  completes := (scan?_eq_some_iff.1 (by cbv)).completes rfl

/-- The text of `a` holds that of `b`, which `b` gives on its own, for it
makes no difference to `b` that `a` was visited. -/
theorem included_file_alone_apart :
    walk? (.steady apart) hash ['a'] = some apartWalk ∧
    (∀ key, ReflTransGen (Refers apart hash) ['b'] key → key ∉ [['a']]) ∧
    (∃ g, flatten? (.steady apart) hash ['b'] = some (.ok g) ∧
      g.chunks = apartInner.chunks ∧ g.visited = [['b'], ['c']] ∧
      apartWalk.chunks = [⟨['x', '\n'], ['a'], 0⟩] ++ g.chunks
        ++ [⟨['\n'], ['a'], 1⟩]) ∧
    hash.scan? (.steady apart) ['b'] 1 .empty
        [['#', '"', 'c', '"'], ['y']] [['a'], ['b']] [['a'], ['b']]
      = hash.scan? (.steady apart) ['b'] 1 .empty
        [['#', '"', 'c', '"'], ['y']] [['b']] [['b']] := by
  have hw : walk? (.steady apart) hash ['a'] = some apartWalk := by cbv
  have hd : ∀ key, ReflTransGen (Refers apart hash) ['b'] key →
      key ∉ [['a']] := by
    intro key hk
    rcases refers_apart hk with rfl | rfl
    · decide
    · decide
  obtain ⟨hpiece, hsame⟩ := included_file_alone apart hash
  obtain ⟨g, hg, rfl, hs⟩ :=
    (hpiece ['a'] apartWalk _ hw rfl).2 _ _ _ _ _ _ takesIn_apart hd
  exact ⟨hw, hd, ⟨_, hg, rfl, rfl, hs.chunks_eq⟩,
    hsame ['b'] _ rfl _ _ _ _ (.of_disjoint hd)⟩

end IncludeFlattener
