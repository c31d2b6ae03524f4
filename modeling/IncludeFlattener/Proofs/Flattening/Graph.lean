/-
IncludeFlattener.Proofs.Flattening.Graph — flattening searches the include
graph.

A node of the graph is a file: the path at which it is read, and the folded
path that is its key. Only the node at which flattening starts may have a
path that is not folded. `flatten_iff_no_defect` is the correctness of the
search: a text comes out if and only if no file that can be reached has a
defect, and then the files in it are those that can be reached.

The search is sound because every path it marks is the key of a node that
can be reached (`Scans.exists_reachable`), and a failure is a defect of such
a node (`Scans.failure_eq_none`). It is complete because a walk without a
failure leaves nothing pending: every file that it marked is without a
defect, and its targets are marked (`Completes.settled`). A file that was
marked but is still being scanned is settled by the end of the walk and not
before, so the invariant speaks of the marks at the end.
-/
import IncludeFlattener.Proofs.Flattening.Marks
import Mathlib.Logic.Relation
namespace IncludeFlattener

open Directive (classify Includes Names LacksPath)

/-! ## 1. The graph -/

/-- The files that can be included, from a path at the top. -/
structure IncludeGraph where
  source : Source
  keyword : Keyword
  top : Path

namespace IncludeGraph

/-- A file: the path at which it is read, and its key. -/
structure Node where
  path : Path
  key : Path

/-- The file at the top keeps the spelling of its path. -/
def start (g : IncludeGraph) : Node := ⟨g.top, Path.collapse g.top⟩

/-- The file with this key. -/
def node (g : IncludeGraph) (key : Path) : Node :=
  if key = Path.collapse g.top then g.start else ⟨key, key⟩

/-- One directive leads from file to file. -/
def Edge (g : IncludeGraph) (a b : Node) : Prop :=
  ∃ lines line q, g.source.read a.path = .ok lines ∧ line ∈ lines ∧
    Names g.keyword line q ∧ b = g.node (Path.join a.path q)

/-- Directives lead from the top to the file. -/
def Reachable (g : IncludeGraph) (a : Node) : Prop :=
  Relation.ReflTransGen g.Edge g.start a

/-- What is wrong with a file: it cannot be read, or one of its directives
lacks a path, or one has the file itself as its target. -/
inductive Defective (g : IncludeGraph) (a : Node) : Prop where
  | unreadable (e : ReadFailure) (hr : g.source.read a.path = .error e)
  | lacksPath (lines : List Text) (line : Text)
      (hr : g.source.read a.path = .ok lines) (hl : line ∈ lines)
      (hk : LacksPath g.keyword line)
  | selfInclude (lines : List Text) (line : Text) (q : Path)
      (hr : g.source.read a.path = .ok lines) (hl : line ∈ lines)
      (hk : Names g.keyword line q) (hs : Path.join a.path q = a.key)

variable {g : IncludeGraph}

theorem node_of_ne {key : Path} (h : key ≠ Path.collapse g.top) :
    g.node key = ⟨key, key⟩ := by
  rw [node, if_neg h]

end IncludeGraph

/-! ## 2. What a walk marks can be reached -/

open IncludeGraph (Node)

/-- The rest of a file is about to be scanned: the file can be reached, and
the lines are some of its lines. -/
structure IncludeGraph.Enters (g : IncludeGraph) (file : Path)
    (lines : List Text) (visited : List Path) : Prop where
  reachable : g.Reachable ⟨file, Path.collapse file⟩
  read : ∃ all, g.source.read file = .ok all ∧ lines ⊆ all
  top_mem : Path.collapse g.top ∈ visited

namespace IncludeGraph.Enters

variable {g : IncludeGraph} {file line target : Path} {rest : List Text}
  {visited : List Path}

theorem tail (h : g.Enters file (line :: rest) visited) :
    g.Enters file rest visited := by
  obtain ⟨all, hr, hl⟩ := h.read
  exact ⟨h.reachable, ⟨all, hr, fun l hm => hl (by simp [hm])⟩, h.top_mem⟩

theorem mark (h : g.Enters file rest visited) (more : List Path) :
    g.Enters file rest (visited ++ more) :=
  ⟨h.reachable, h.read, List.mem_append_left _ h.top_mem⟩

/-- A target that is not marked yet is a node like any other. -/
theorem reachable_target (h : g.Enters file (line :: rest) visited)
    (hk : Includes g.keyword file line target) (hv : target ∉ visited) :
    g.Reachable ⟨target, Path.collapse target⟩ := by
  obtain ⟨quoted, hq, rfl⟩ := hk
  obtain ⟨all, hr, hl⟩ := h.read
  refine h.reachable.tail ⟨all, line, quoted, hr, hl (by simp),
    Directive.classify_eq_directive_iff.1 hq, ?_⟩
  have hne : Path.join file quoted ≠ Path.collapse g.top := by
    intro he
    exact hv (he ▸ h.top_mem)
  rw [IncludeGraph.node_of_ne hne, Path.collapse_join]

theorem descend (h : g.Enters file (line :: rest) visited)
    (hk : Includes g.keyword file line target) (hv : target ∉ visited)
    {lines : List Text} (hr : g.source.read target = .ok lines) :
    g.Enters target lines (visited ++ [target]) :=
  ⟨h.reachable_target hk hv, ⟨lines, hr, fun _ hm => hm⟩,
    List.mem_append_left _ h.top_mem⟩

end IncludeGraph.Enters

section Sound

variable {g : IncludeGraph} {file : Path} {n : Nat} {run : Run}
  {lines : List Text} {visited earlier : List Path} {w : Walk}

theorem Scans.exists_reachable
    (h : Scans g.source.reader g.keyword file n run lines visited earlier w)
    (he : g.Enters file lines visited) :
    ∀ key ∈ w.visited, g.Reachable ⟨key, Path.collapse key⟩ := by
  induction h with
  | nil => simp
  | ordinary _ _ ih => exact ih he.tail
  | malformed => simp
  | selfInclude => simp
  | skip _ _ _ _ ih => simpa using ih he.tail
  | unread hk _ hv => simpa using he.reachable_target hk hv
  | innerFailed hk _ hv hr _ _ ih =>
    simpa using ⟨he.reachable_target hk hv, ih (he.descend hk hv hr)⟩
  | inline hk _ hv hr _ _ _ ihi iha =>
    intro key hm
    rw [Walk.visited_append, Walk.visited_append, List.mem_append,
      List.mem_append] at hm
    obtain (hm | hm) | hm := hm
    · rcases List.mem_singleton.1 hm with rfl
      exact he.reachable_target hk hv
    · exact ihi (he.descend hk hv hr) key hm
    · exact iha ((he.tail.mark _).mark _) key hm

/-- A walk through files without defects does not fail. -/
theorem Scans.failure_eq_none
    (h : Scans g.source.reader g.keyword file n run lines visited earlier w)
    (hd : ∀ a, g.Reachable a → ¬ g.Defective a)
    (he : g.Enters file lines visited) : w.failure = none := by
  induction h with
  | nil => rfl
  | ordinary _ _ ih => exact ih he.tail
  | malformed hk =>
    obtain ⟨all, hr, hl⟩ := he.read
    exact absurd (.lacksPath all _ hr (hl (by simp))
      (Directive.classify_eq_malformed_iff.1 hk)) (hd _ he.reachable)
  | selfInclude hk =>
    obtain ⟨quoted, hq, hj⟩ := hk
    obtain ⟨all, hr, hl⟩ := he.read
    exact absurd (.selfInclude all _ quoted hr (hl (by simp))
      (Directive.classify_eq_directive_iff.1 hq) hj) (hd _ he.reachable)
  | skip _ _ _ _ ih => simpa using ih he.tail
  | unread hk _ hv hr =>
    exact absurd (.unreadable _ hr) (hd _ (he.reachable_target hk hv))
  | innerFailed hk _ hv hr _ hf ih =>
    exact absurd (ih (he.descend hk hv hr)) hf
  | inline _ _ _ _ _ hf _ _ iha =>
    simpa [Answer.failure?, hf] using iha ((he.tail.mark _).mark _)

end Sound

/-! ## 3. What can be reached is marked -/

/-- Every directive among the lines has a target, which is another file and
one of the keys. -/
def Settled (keyword : Keyword) (keys : List Path) (file : Path)
    (lines : List Text) : Prop :=
  ∀ line ∈ lines, ¬ LacksPath keyword line ∧ ∀ q, Names keyword line q →
    Path.join file q ≠ Path.collapse file ∧ Path.join file q ∈ keys

namespace Settled

variable {keyword : Keyword} {keys : List Path} {file target : Path}
  {line : Text} {rest : List Text}

theorem nil : Settled keyword keys file [] := by
  simp [Settled]

theorem cons_ordinary (hk : classify keyword line = .ordinary)
    (h : Settled keyword keys file rest) :
    Settled keyword keys file (line :: rest) := by
  intro l hm
  rcases List.mem_cons.1 hm with rfl | hm
  · constructor
    · rw [← Directive.classify_eq_malformed_iff, hk]
      simp
    · intro q hq
      rw [← Directive.classify_eq_directive_iff, hk] at hq
      cases hq
  · exact h l hm

theorem cons_includes (hk : Includes keyword file line target)
    (hs : target ≠ Path.collapse file) (ht : target ∈ keys)
    (h : Settled keyword keys file rest) :
    Settled keyword keys file (line :: rest) := by
  obtain ⟨quoted, hc, rfl⟩ := hk
  intro l hm
  rcases List.mem_cons.1 hm with rfl | hm
  · constructor
    · rw [← Directive.classify_eq_malformed_iff, hc]
      simp
    · intro q hq
      rw [← Directive.classify_eq_directive_iff, hc] at hq
      cases hq
      exact ⟨hs, ht⟩
  · exact h l hm

theorem mono {more : List Path} (hm : keys ⊆ more)
    (h : Settled keyword keys file rest) : Settled keyword more file rest :=
  fun line hl => ⟨(h line hl).1, fun q hq =>
    ⟨((h line hl).2 q hq).1, hm ((h line hl).2 q hq).2⟩⟩

end Settled

/-- The file with this key was read, and its lines are settled. -/
def SettledFile (source : Source) (keyword : Keyword) (keys : List Path)
    (key : Path) : Prop :=
  ∃ lines, source.read key = .ok lines ∧ Settled keyword keys key lines

theorem SettledFile.mono {source : Source} {keyword : Keyword}
    {keys more : List Path} {key : Path} (hm : keys ⊆ more)
    (h : SettledFile source keyword keys key) :
    SettledFile source keyword more key := by
  obtain ⟨lines, hr, hl⟩ := h
  exact ⟨lines, hr, hl.mono hm⟩

/-- When a walk is complete, its lines are settled, and so is every file that
it marked. -/
theorem Completes.settled {source : Source} {keyword : Keyword} {file : Path}
    {n : Nat} {run : Run} {lines : List Text} {visited earlier : List Path}
    {w : Walk}
    (h : Completes source.reader keyword file n run lines visited earlier w) :
    Settled keyword (visited ++ w.visited) file lines ∧
      ∀ key ∈ w.visited,
        SettledFile source keyword (visited ++ w.visited) key := by
  induction h with
  | nil => exact ⟨.nil, by simp⟩
  | ordinary hk _ ih => exact ⟨.cons_ordinary hk ih.1, ih.2⟩
  | skip hk hs hv _ ih =>
    refine ⟨.cons_includes hk hs (List.mem_append_left _ hv) ?_, ?_⟩
    · simpa using ih.1
    · simpa using ih.2
  | @inline _ _ _ _ _ visited _ target inside inner after hk hs _ hr _ _ ihi
      iha =>
    simp only [Walk.visited_append, Walk.entered, ← List.append_assoc]
    refine ⟨.cons_includes hk hs (by simp) iha.1, ?_⟩
    have hsub : visited ++ [target] ++ inner.visited ⊆
        visited ++ [target] ++ inner.visited ++ after.visited :=
      List.subset_append_left _ _
    intro key hm
    rw [List.mem_append, List.mem_append] at hm
    obtain (hm | hm) | hm := hm
    · rcases List.mem_singleton.1 hm with rfl
      exact ⟨inside, hr, ihi.1.mono hsub⟩
    · exact (ihi.2 key hm).mono hsub
    · exact iha.2 key hm

/-! ## 4. Correctness of the search -/

namespace IncludeGraph

variable {g : IncludeGraph}

/-- Where the files in a list of keys are settled, directives lead nowhere
else, and meet no defect. -/
theorem Reachable.settled {keys : List Path} {lines : List Text}
    (hr : g.source.read g.top = .ok lines)
    (hl : Settled g.keyword (Path.collapse g.top :: keys) g.top lines)
    (hk : ∀ key ∈ keys, Path.collapse key = key ∧
      SettledFile g.source g.keyword (Path.collapse g.top :: keys) key)
    {a : Node} (ha : g.Reachable a) :
    a.key ∈ Path.collapse g.top :: keys ∧ a.key = Path.collapse a.path ∧
      SettledFile g.source g.keyword (Path.collapse g.top :: keys) a.path := by
  induction ha with
  | refl => exact ⟨by simp [start], rfl, lines, hr, hl⟩
  | @tail a _ _ he ih =>
    obtain ⟨inside, line, q, hi, hm, hq, rfl⟩ := he
    obtain ⟨-, -, inside', hi', hs⟩ := ih
    rw [hi] at hi'
    cases hi'
    have ht := ((hs line hm).2 q hq).2
    by_cases htop : Path.join a.path q = Path.collapse g.top
    · rw [node, if_pos htop]
      exact ⟨by simp [start], rfl, lines, hr, hl⟩
    · rw [node_of_ne htop]
      obtain ⟨hc, hset⟩ := hk _ ((List.mem_cons.1 ht).resolve_left htop)
      exact ⟨ht, hc.symm, hset⟩

theorem not_defective_of_settled {keys : List Path} {a : Node}
    (hk : a.key = Path.collapse a.path)
    (h : SettledFile g.source g.keyword keys a.path) : ¬ g.Defective a := by
  obtain ⟨lines, hr, hl⟩ := h
  intro hd
  cases hd with
  | unreadable e he =>
    rw [hr] at he
    cases he
  | lacksPath all line he hm hq =>
    rw [hr] at he
    cases he
    exact (hl line hm).1 hq
  | selfInclude all line q he hm hq hs =>
    rw [hr] at he
    cases he
    exact ((hl line hm).2 q hq).1 (hs.trans hk)

end IncludeGraph

theorem IncludeGraph.enters_top (g : IncludeGraph) {lines : List Text}
    (hr : g.source.read g.top = .ok lines) :
    g.Enters g.top lines [Path.collapse g.top] :=
  ⟨.refl, ⟨lines, hr, fun _ hm => hm⟩, by simp⟩

/-- If no file has a defect, a text comes out. -/
theorem exists_flatten_eq_ok {g : IncludeGraph}
    (hd : ∀ a, g.Reachable a → ¬ g.Defective a) :
    ∃ f, flatten g.source g.keyword g.top = .ok f := by
  have hw := walk?_eq_some_walk g.source g.keyword g.top
  refine ⟨_, Walk.result_eq_ok_iff.2 ⟨?_, rfl⟩⟩
  obtain ⟨e, hr, he⟩ | ⟨lines, inner, hr, hi, he⟩ := walk?_eq_some_iff.1 hw
  · exact absurd (.unreadable e hr) (hd g.start .refl)
  · rw [he]
    simpa [Answer.failure?] using hi.failure_eq_none hd (g.enters_top hr)

/-- If a text comes out, the files in it are those that can be reached, and
none has a defect. -/
theorem reachable_of_flatten_eq_ok {g : IncludeGraph} {f : Flattened}
    (h : flatten g.source g.keyword g.top = .ok f) :
    (∀ a, g.Reachable a → a.key ∈ f.visited ∧ ¬ g.Defective a) ∧
      ∀ key ∈ f.visited, ∃ a, g.Reachable a ∧ a.key = key := by
  have hw := walk?_eq_some_walk g.source g.keyword g.top
  obtain ⟨lines, inner, hr, hi, -, rfl⟩ := exists_completes hw h
  have hc := hi.scans.collapse_of_mem_visited
  obtain ⟨hl, hk⟩ := hi.settled
  constructor
  · intro a ha
    obtain ⟨hm, hak, hs⟩ := ha.settled hr hl fun key hm =>
      ⟨hc key hm, hk key hm⟩
    exact ⟨hm, IncludeGraph.not_defective_of_settled hak hs⟩
  · intro key hm
    rcases List.mem_cons.1 hm with rfl | hm
    · exact ⟨g.start, .refl, rfl⟩
    · have ha := hi.scans.exists_reachable (g.enters_top hr) key hm
      exact ⟨_, ha, hc key hm⟩

/-- **Correctness of the search.** A text comes out if and only if no file
that can be reached has a defect; the files in it are then those that can
be reached, each once and the one at the top first. -/
theorem flatten_iff_no_defect (g : IncludeGraph) :
    ((∃ f, flatten g.source g.keyword g.top = .ok f) ↔
      ∀ a, g.Reachable a → ¬ g.Defective a) ∧
    ∀ f, flatten g.source g.keyword g.top = .ok f →
      f.visited.Nodup ∧ f.visited.head? = some (Path.collapse g.top) ∧
      ∀ key, key ∈ f.visited ↔ ∃ a, g.Reachable a ∧ a.key = key := by
  refine ⟨⟨?_, exists_flatten_eq_ok⟩, ?_⟩
  · rintro ⟨f, h⟩ a ha
    exact ((reachable_of_flatten_eq_ok h).1 a ha).2
  · intro f h
    obtain ⟨hreach, hmark⟩ := reachable_of_flatten_eq_ok h
    have hw := walk?_eq_some_walk g.source g.keyword g.top
    obtain ⟨lines, inner, -, hi, -, rfl⟩ := exists_completes hw h
    refine ⟨hi.scans.nodup_visited (by simp), rfl, fun key => ⟨hmark key, ?_⟩⟩
    rintro ⟨a, ha, rfl⟩
    exact (hreach a ha).1

end IncludeFlattener
