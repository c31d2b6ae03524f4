/-
IncludeFlattener.Proofs.Path.Shape — what a folded path looks like.

A folded path is the root of the path that was folded, with `/` for every
separator, and components in normal form behind it: leading `..`, of which a
root allows none, and then names (`NormalForm`). The root is said on the
spelling alone (`SpellsRoot`), and the stack of kept components is read from
its bottom to its top (`Folded.exists_parents`).

That a folded path is folded already does not follow from its shape at
once. In `x/../C:/a` the first component that stays looks like a drive, and
once nothing stands before it it is read as one: what was a name is a root
the second time. `collapse_collapse` covers this.
-/
import IncludeFlattener.Proofs.Path.Normal
namespace IncludeFlattener.Path

/-! ## 1. The root of a path -/

/-- The root with which a path begins, as it is spelled. A drive goes before
a leading separator, and a path without either has no root. -/
inductive SpellsRoot : Path → Path → Prop where
  | none {p : Path} (hd : ¬ HasDrive p)
      (ht : ∀ c rest, p = c :: rest → isSeparator c = false) :
      SpellsRoot p []
  | top {c : Char} {rest : Path} (hd : ¬ HasDrive (c :: rest))
      (hc : isSeparator c = true) : SpellsRoot (c :: rest) [c]
  | drive {c s : Char} {rest : Path} (hc : c.toNat < 0x80)
      (hs : isSeparator s = true) :
      SpellsRoot (c :: ':' :: s :: rest) [c, ':', s]

theorem normalizeSeparators_of_isSeparator {c : Char}
    (h : isSeparator c = true) : normalizeSeparators [c] = ['/'] := by
  simp [normalizeSeparators, h]

/-- A drive root is written with `/` whatever its letter and its separator
are. -/
theorem normalizeSeparators_drive (c : Char) {s : Char}
    (h : isSeparator s = true) :
    normalizeSeparators [c, ':', s] = (Root.drive c).text := by
  have hcolon : isSeparator ':' = false := by decide
  simp [normalizeSeparators, Root.text, h, hcolon]

/-- Splitting a path after its root finds the root that it spells. -/
theorem exists_spellsRoot (p : Path) :
    ∃ root, SpellsRoot p root ∧
      normalizeSeparators root = (splitRoot p).1.text ∧
      (root ≠ [] → (splitRoot p).1.isTop = true) := by
  by_cases hd : HasDrive p
  · obtain ⟨c, s, rest, rfl, hc, hs⟩ := hd
    rw [splitRoot_drive rest hc hs]
    exact ⟨_, .drive hc hs, normalizeSeparators_drive c hs, fun _ => rfl⟩
  · rw [splitRoot_of_not_hasDrive hd]
    cases p with
    | nil => exact ⟨[], .none hd (by simp), rfl, fun h => absurd rfl h⟩
    | cons c rest =>
      by_cases hc : isSeparator c = true
      · rw [splitTop_separator rest hc]
        exact ⟨[c], .top hd hc, normalizeSeparators_of_isSeparator hc,
          fun _ => rfl⟩
      · have ht : ∀ d tail, c :: rest = d :: tail → isSeparator d = false := by
          rintro d tail ⟨⟩
          simpa using hc
        rw [splitTop_of_head ht]
        exact ⟨[], .none hd ht, rfl, fun h => absurd rfl h⟩

/-- The three ways in which a root is written. -/
theorem text_cases (root : Root) :
    root.text = [] ∨ root.text = ['/'] ∨ ∃ c, root.text = [c, ':', '/'] := by
  cases root with
  | none => exact .inl rfl
  | top => exact .inr (.inl rfl)
  | drive c => exact .inr (.inr ⟨_, rfl⟩)

/-! ## 2. The components of a folded path -/

/-- Components as folding leaves them: some `..` in front, none of them under
a root, and names behind. -/
structure NormalForm (rooted : Prop) (ps : List Path) : Prop where
  plain : Plain ps
  parents : ∃ n names, ps = List.replicate n parent ++ names ∧
    (∀ p ∈ names, IsName p) ∧ (rooted → n = 0)

/-- From the bottom, a folded stack is `..` components and then names. -/
theorem Folded.exists_parents {isTop : Bool} {kept : List Path}
    (h : Folded isTop kept) :
    ∃ n names, kept.reverse = List.replicate n parent ++ names ∧
      (∀ p ∈ names, IsName p) ∧ (isTop = true → n = 0) := by
  induction h with
  | parents n hn => exact ⟨n, [], by simp, by simp, hn⟩
  | @name p kept hp _ ih =>
    obtain ⟨n, names, hk, hnames, hn⟩ := ih
    refine ⟨n, names ++ [p], by simp [hk], ?_, hn⟩
    intro q hq
    rcases List.mem_append.1 hq with hq | hq
    · exact hnames q hq
    · rw [List.mem_singleton.1 hq]
      exact hp

theorem ofComponents_eq_intercalate : ∀ ps : List Path,
    ofComponents ps = ['/'].intercalate ps
  | [] => rfl
  | [p] => by simp [ofComponents]
  | p :: q :: rest => by
      rw [ofComponents, ofComponents_eq_intercalate (q :: rest),
        List.intercalate_cons_cons, List.append_assoc, List.singleton_append]

/-! ## 3. The whole path -/

/-- **Folded paths.** A folded path is the root of the path, written with
`/`, and components in normal form joined by `/`. Folding it changes nothing,
although its root may be read in another way then, and so every target is
folded already. -/
theorem collapse_normalForm (p : Path) :
    (∃ root ps, SpellsRoot p root ∧
      collapse p = normalizeSeparators root ++ ['/'].intercalate ps ∧
      (normalizeSeparators root = [] ∨ normalizeSeparators root = ['/'] ∨
        ∃ c, normalizeSeparators root = [c, ':', '/']) ∧
      NormalForm (root ≠ []) ps) ∧
    '\\' ∉ collapse p ∧
    collapse (collapse p) = collapse p ∧
    ∀ relative, collapse (join p relative) = join p relative := by
  refine ⟨?_, backslash_not_mem_collapse p, collapse_collapse p,
    collapse_join p⟩
  obtain ⟨root, hroot, htext, htop⟩ := exists_spellsRoot p
  have hfold := (folded_fold (splitRoot p).1.isTop
    (components (splitRoot p).2)).exists_parents
  rw [List.reverse_reverse] at hfold
  obtain ⟨n, names, hps, hnames, hn⟩ := hfold
  refine ⟨root, fold (splitRoot p).1.isTop (components (splitRoot p).2),
    hroot, ?_, ?_, plain_fold _ (plain_components _), n, names, hps, hnames,
    fun h => hn (htop h)⟩
  · rw [htext, ← ofComponents_eq_intercalate]
    rfl
  · rw [htext]
    exact text_cases _

/-- What is folded to a drive is read as a drive. -/
example : collapse "x/../C:/a".toList = "C:/a".toList ∧
    splitRoot "C:/a".toList = (.drive 'C', ['a']) ∧
    collapse "//:/a".toList = "/:/a".toList ∧
    splitRoot "/:/a".toList = (.drive '/', ['a']) := by decide

end IncludeFlattener.Path
