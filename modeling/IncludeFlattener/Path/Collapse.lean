/-
IncludeFlattener.Path.Collapse — folding `.` and `..` away, and the path
of an include target.

`collapse` looks only at the spelling. It drops empty and `.` components
and lets `..` cancel the ordinary component before it; a `..` with nothing
to cancel is dropped under a top and kept otherwise. The components kept so
far form a stack with the innermost one in front, and one component does
one step on it (`fold`).

The stack invariant is `Folded`: components are ordinary names, and below
them, only if there is no top, lie `..` components. `folded_fold` says that
folding leaves such a stack, whatever the components were.
-/
import IncludeFlattener.Path
namespace IncludeFlattener.Path

/-- The component that stays where it is. -/
def here : Path := ['.']

/-- The component that goes up. -/
def parent : Path := ['.', '.']

/-! ## 1. Folding -/

/-- One component's effect on the components kept so far, innermost
first. -/
def foldStep (isTop : Bool) (kept : List Path) (p : Path) : List Path :=
  if p = [] ∨ p = here then kept
  else if p = parent then
    match kept with
    | [] => if isTop then [] else [parent]
    | last :: below =>
      if last = parent then (if isTop then kept else parent :: kept)
      else below
  else p :: kept

/-- The components that stay, outermost first. -/
def fold (isTop : Bool) (ps : List Path) : List Path :=
  (ps.foldl (foldStep isTop) []).reverse

/-- The path with `.` and `..` folded away and `/` as its only separator.
Two spellings that fold to one path count as one file. -/
def collapse (p : Path) : Path :=
  let (root, rest) := splitRoot p
  root.text ++ ofComponents (fold root.isTop (components rest))

/-- The path of `relative` as seen from the directory of `current`. -/
def join (current relative : Path) : Path :=
  collapse (directory current ++ relative)

/-! ## 2. The stack -/

/-- An ordinary component: a name, neither empty nor `.` nor `..`. -/
def IsName (p : Path) : Prop := p ≠ [] ∧ p ≠ here ∧ p ≠ parent

instance (p : Path) : Decidable (IsName p) :=
  inferInstanceAs (Decidable (p ≠ [] ∧ p ≠ here ∧ p ≠ parent))

/-- What a stack of kept components looks like, innermost first: names,
and under them `..` components, which a top does not allow. -/
inductive Folded (isTop : Bool) : List Path → Prop where
  | parents (n : Nat) (h : isTop = true → n = 0) :
      Folded isTop (List.replicate n parent)
  | name {p : Path} {kept : List Path} : IsName p → Folded isTop kept →
      Folded isTop (p :: kept)

theorem foldStep_blank (isTop : Bool) (kept : List Path) {p : Path}
    (h : p = [] ∨ p = here) : foldStep isTop kept p = kept := by
  simp [foldStep, h]

theorem foldStep_name (isTop : Bool) (kept : List Path) {p : Path}
    (h : IsName p) : foldStep isTop kept p = p :: kept := by
  simp [foldStep, h.1, h.2.1, h.2.2]

theorem foldStep_parent_name (isTop : Bool) (kept : List Path) {p : Path}
    (h : IsName p) : foldStep isTop (p :: kept) parent = kept := by
  simp [foldStep, h.2.2, show parent ≠ [] by decide,
    show parent ≠ here by decide]

theorem foldStep_parent_parents (isTop : Bool) (n : Nat)
    (h : isTop = true → n = 0) :
    foldStep isTop (List.replicate n parent) parent
      = List.replicate (if isTop then 0 else n + 1) parent := by
  cases isTop <;> cases n <;>
    simp_all [foldStep, List.replicate_succ, show parent ≠ [] by decide,
      show parent ≠ here by decide]

/-- Every component is blank, goes up, or is a name. -/
theorem blank_or_parent_or_isName (p : Path) :
    (p = [] ∨ p = here) ∨ p = parent ∨ IsName p := by
  by_cases h1 : p = []
  · exact Or.inl (Or.inl h1)
  by_cases h2 : p = here
  · exact Or.inl (Or.inr h2)
  by_cases h3 : p = parent
  · exact Or.inr (Or.inl h3)
  · exact Or.inr (Or.inr ⟨h1, h2, h3⟩)

theorem folded_foldStep {isTop : Bool} {kept : List Path}
    (h : Folded isTop kept) (p : Path) :
    Folded isTop (foldStep isTop kept p) := by
  rcases blank_or_parent_or_isName p with hb | rfl | hn
  · rwa [foldStep_blank isTop kept hb]
  · cases h with
    | parents n hn =>
      rw [foldStep_parent_parents isTop n hn]
      exact .parents _ (fun ht => by simp [ht])
    | name hq hk => rwa [foldStep_parent_name isTop _ hq]
  · rw [foldStep_name isTop kept hn]
    exact .name hn h

theorem folded_foldl (isTop : Bool) : ∀ (ps kept : List Path),
    Folded isTop kept → Folded isTop (ps.foldl (foldStep isTop) kept)
  | [], _, h => h
  | p :: ps, _, h => folded_foldl isTop ps _ (folded_foldStep h p)

/-- Folding leaves a stack of names over `..` components. -/
theorem folded_fold (isTop : Bool) (ps : List Path) :
    Folded isTop (fold isTop ps).reverse := by
  rw [fold, List.reverse_reverse]
  exact folded_foldl isTop ps [] (.parents 0 (fun _ => rfl))

end IncludeFlattener.Path
