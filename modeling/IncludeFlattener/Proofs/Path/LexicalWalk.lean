/-
IncludeFlattener.Proofs.Path.LexicalWalk — paths that fold to one key are
the paths that lead to one place.

A path is a walk: each component is one step, down to a name or up from
it. Where the walk is after some steps (`LexicalPlace`) is told by the
names that it is below, and, if it has left the directory in which it
started, by the number of levels above that. No directory is looked at, so
`..` goes back on the name before it, whatever stands there.

Folding keeps a stack of components, and this stack is the place written
down (`foldStep_stack`): the names, and one `..` for each level above the
start. A place can be read off its stack (`stack_inj`), and a stack can be
read off the path that it spells, so no two places share a key and no
place has two keys (`collapse_eq_collapse_iff`).

Without a colon there are no drives. The root of a drive is read before the
walk begins, and it may be the name of a directory as well.
-/
import IncludeFlattener.Proofs.Path.Spelling
namespace IncludeFlattener.Path

/-! ## 1. The walk -/

/-- A place as it is known from the steps that led to it. -/
structure LexicalPlace where
  /-- How many levels it lies above the start, before any name. -/
  above : Nat
  /-- The names gone down to from there, innermost first. -/
  names : List Path
  deriving DecidableEq, Repr

namespace LexicalPlace

/-- Where a walk starts. -/
def start : LexicalPlace := ⟨0, []⟩

/-- One level up: back from the last name, if there is one. Above the top
there is nothing to go to. -/
def goUp (rooted : Bool) : LexicalPlace → LexicalPlace
  | ⟨above, _ :: names⟩ => ⟨above, names⟩
  | ⟨above, []⟩ => if rooted then ⟨above, []⟩ else ⟨above + 1, []⟩

/-- The place to which one component leads. -/
def step (rooted : Bool) (place : LexicalPlace) (p : Path) : LexicalPlace :=
  if p = [] ∨ p = here then place
  else if p = parent then place.goUp rooted
  else ⟨place.above, p :: place.names⟩

end LexicalPlace

/-- Whether the path begins with a separator, and so at the top. -/
def startsAtTop (p : Path) : Bool := p.head?.any isSeparator

/-- The place to which the components of a path lead. -/
def lexicalWalk (p : Path) : LexicalPlace :=
  (components p).foldl (LexicalPlace.step (startsAtTop p)) .start

/-! ## 2. The stack that stands for a place -/

namespace LexicalPlace

/-- A place that a walk can come to: it is below ordinary names, and never
above the top. -/
structure Proper (rooted : Bool) (place : LexicalPlace) : Prop where
  isName : ∀ p ∈ place.names, IsName p
  above_eq : rooted = true → place.above = 0

/-- The place as a stack of components. -/
def stack (place : LexicalPlace) : List Path :=
  place.names ++ List.replicate place.above parent

section Step

variable {rooted : Bool} {place : LexicalPlace} {p : Path}

theorem step_blank (h : p = [] ∨ p = here) : place.step rooted p = place := by
  simp [step, h]

theorem step_parent : place.step rooted parent = place.goUp rooted := by
  simp [step, show parent ≠ [] by decide, show parent ≠ here by decide]

theorem step_name (h : IsName p) :
    place.step rooted p = ⟨place.above, p :: place.names⟩ := by
  simp [step, h.1, h.2.1, h.2.2]

theorem proper_start : start.Proper rooted := ⟨by simp [start], fun _ => rfl⟩

theorem Proper.goUp (h : place.Proper rooted) :
    (place.goUp rooted).Proper rooted := by
  obtain ⟨above, names⟩ := place
  cases names with
  | cons p names => exact ⟨(List.forall_mem_cons.1 h.isName).2, h.above_eq⟩
  | nil =>
    cases rooted with
    | true => exact h
    | false => exact ⟨h.isName, by simp⟩

theorem Proper.step (h : place.Proper rooted) (p : Path) :
    (place.step rooted p).Proper rooted := by
  rcases blank_or_parent_or_isName p with hb | rfl | hn
  · rwa [step_blank hb]
  · rw [step_parent]
    exact h.goUp
  · rw [step_name hn]
    exact ⟨List.forall_mem_cons.2 ⟨hn, h.isName⟩, h.above_eq⟩

/-- Going up takes the top off the stack, or puts one more `..` onto a stack
without names. -/
theorem foldStep_parent_stack (h : place.Proper rooted) :
    foldStep rooted place.stack parent = (place.goUp rooted).stack := by
  obtain ⟨above, names⟩ := place
  cases names with
  | cons p names =>
    exact foldStep_parent_name rooted _ (h.isName p List.mem_cons_self)
  | nil =>
    refine (foldStep_parent_parents rooted above h.above_eq).trans ?_
    cases rooted with
    | false => rfl
    | true =>
      obtain rfl : above = 0 := h.above_eq rfl
      rfl

/-- A step of folding is a step of the walk. -/
theorem foldStep_stack (h : place.Proper rooted) (p : Path) :
    foldStep rooted place.stack p = (place.step rooted p).stack := by
  rcases blank_or_parent_or_isName p with hb | rfl | hn
  · rw [foldStep_blank rooted _ hb, step_blank hb]
  · rw [foldStep_parent_stack h, step_parent]
  · rw [foldStep_name rooted _ hn, step_name hn]
    rfl

theorem foldl_foldStep_stack (ps : List Path) (h : place.Proper rooted) :
    ps.foldl (foldStep rooted) place.stack
      = (ps.foldl (LexicalPlace.step rooted) place).stack := by
  induction ps generalizing place with
  | nil => rfl
  | cons p ps ih =>
    rw [List.foldl_cons, List.foldl_cons, foldStep_stack h, ih (h.step p)]

theorem proper_foldl (ps : List Path) (h : place.Proper rooted) :
    (ps.foldl (LexicalPlace.step rooted) place).Proper rooted := by
  induction ps generalizing place with
  | nil => exact h
  | cons p ps ih => exact ih (h.step p)

end Step

/-- A place can be read off its stack: no name is `..`, so the names end
where the first `..` lies. -/
theorem stack_inj : ∀ {a b : LexicalPlace}, (∀ p ∈ a.names, IsName p) →
    (∀ p ∈ b.names, IsName p) → a.stack = b.stack → a = b
  | ⟨m, []⟩, ⟨n, []⟩, _, _, h => by
      have hl := congrArg List.length h
      simp only [stack, List.nil_append, List.length_replicate] at hl
      rw [hl]
  | ⟨m, []⟩, ⟨n, q :: qs⟩, _, hb, h => by
      have hq : q ∈ List.replicate m parent := by
        simp only [stack, List.nil_append] at h
        rw [h]
        exact List.mem_cons_self
      exact absurd (List.eq_of_mem_replicate hq)
        (hb q List.mem_cons_self).2.2
  | ⟨m, p :: ps⟩, ⟨n, []⟩, ha, _, h => by
      have hp : p ∈ List.replicate n parent := by
        simp only [stack, List.nil_append] at h
        rw [← h]
        exact List.mem_cons_self
      exact absurd (List.eq_of_mem_replicate hp)
        (ha p List.mem_cons_self).2.2
  | ⟨m, p :: ps⟩, ⟨n, q :: qs⟩, ha, hb, h => by
      obtain ⟨rfl, h⟩ := List.cons.inj h
      have ih := @stack_inj ⟨m, ps⟩ ⟨n, qs⟩ (List.forall_mem_cons.1 ha).2
        (List.forall_mem_cons.1 hb).2 h
      cases ih
      rfl

end LexicalPlace

/-! ## 3. The key of a place -/

theorem proper_lexicalWalk (p : Path) :
    (lexicalWalk p).Proper (startsAtTop p) :=
  LexicalPlace.proper_foldl _ LexicalPlace.proper_start

theorem splitTop_fst (p : Path) :
    (splitTop p).1 = if startsAtTop p then .top else .none := by
  cases p with
  | nil => rfl
  | cons c rest =>
    by_cases hc : isSeparator c = true
    · simp [splitTop, startsAtTop, hc]
    · simp [splitTop, startsAtTop, hc]

theorem isTop_splitTop (p : Path) :
    (splitTop p).1.isTop = startsAtTop p := by
  rw [splitTop_fst]
  cases startsAtTop p <;> rfl

/-- The separator in front ends an empty component, which leads nowhere. -/
theorem foldl_components_splitTop (p : Path) :
    (components (splitTop p).2).foldl (foldStep (startsAtTop p)) []
      = (components p).foldl (foldStep (startsAtTop p)) [] := by
  cases p with
  | nil => rfl
  | cons c rest =>
    by_cases hc : isSeparator c = true
    · rw [splitTop_separator rest hc, components_separator hc,
        List.foldl_cons, foldStep_blank _ _ (.inl rfl)]
    · rw [splitTop, if_neg hc]

theorem fold_components_splitTop (p : Path) :
    fold (splitTop p).1.isTop (components (splitTop p).2)
      = (lexicalWalk p).stack.reverse := by
  rw [fold, isTop_splitTop, foldl_components_splitTop]
  exact congrArg List.reverse
    (LexicalPlace.foldl_foldStep_stack _ LexicalPlace.proper_start)

theorem collapse_eq_stack {p : Path} (h : ':' ∉ p) :
    collapse p
      = (splitTop p).1.text ++ ofComponents (lexicalWalk p).stack.reverse := by
  rw [collapse, splitRoot_of_not_hasDrive (not_hasDrive_of_no_colon h),
    ← fold_components_splitTop]

theorem plain_stack (p : Path) : Plain (lexicalWalk p).stack.reverse := by
  rw [← fold_components_splitTop]
  exact plain_fold _ (plain_components _)

theorem ne_nil_of_mem_stack (p : Path) :
    ∀ q ∈ (lexicalWalk p).stack.reverse, q ≠ [] := by
  intro q hq
  rw [← fold_components_splitTop] at hq
  exact (folded_fold _ _).ne_nil q (List.mem_reverse.2 hq)

/-- **A folded path is a key of one place.** Two paths without a colon fold to
one path exactly if both or neither begin with a separator and their
components lead to the same place. -/
theorem collapse_eq_collapse_iff {a b : Path} (ha : ':' ∉ a) (hb : ':' ∉ b) :
    collapse a = collapse b ↔
      (startsAtTop a ↔ startsAtTop b) ∧ lexicalWalk a = lexicalWalk b := by
  rw [collapse_eq_stack ha, collapse_eq_stack hb, ← Bool.eq_iff_iff]
  constructor
  · intro h
    obtain ⟨hroot, hstack⟩ := text_append_inj (splitTop_ne_drive a)
      (splitTop_ne_drive b) (plain_stack a) (plain_stack b)
      (ne_nil_of_mem_stack a) (ne_nil_of_mem_stack b) h
    refine ⟨?_, LexicalPlace.stack_inj (proper_lexicalWalk a).isName
      (proper_lexicalWalk b).isName (List.reverse_inj.1 hstack)⟩
    rw [← isTop_splitTop a, hroot, isTop_splitTop]
  · rintro ⟨hroot, hplace⟩
    rw [splitTop_fst, splitTop_fst, hroot, hplace]

/-- Two walks that leave the directory in which they start by two levels. -/
theorem collapse_eq_collapse_iff_twoAbove :
    ':' ∉ "..\\x/../../y/".toList ∧ ':' ∉ "./..//..\\y".toList ∧
    lexicalWalk "./..//..\\y".toList = ⟨2, [['y']]⟩ ∧
    collapse "..\\x/../../y/".toList = collapse "./..//..\\y".toList := by
  have ha : ':' ∉ "..\\x/../../y/".toList := by decide
  have hb : ':' ∉ "./..//..\\y".toList := by decide
  exact ⟨ha, hb, by decide,
    (collapse_eq_collapse_iff ha hb).2 ⟨by decide, by decide⟩⟩

/-- A drive is not left, a directory is. -/
example : lexicalWalk "C:/..".toList = lexicalWalk "x/..".toList ∧
    collapse "C:/..".toList = "C:/".toList ∧
    collapse "x/..".toList = [] := by decide

end IncludeFlattener.Path
