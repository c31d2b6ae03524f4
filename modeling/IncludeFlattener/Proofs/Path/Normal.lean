/-
IncludeFlattener.Proofs.Path.Normal — a folded path is folded already.

`collapse_collapse` is what makes a folded path a key: a file that is read
under its key has that key again. A second folding may read the path
differently, for the first component of `C:/a` looks like a drive once
nothing stands before it. `exists_splitRoot` covers every reading: whatever
the second root is, the root and the components after it spell the same
path, and the components are a folded stack over that root.
-/
import IncludeFlattener.Path.Collapse
namespace IncludeFlattener.Path

/-! ## 1. Folding a folded stack -/

/-- A component that lies on a folded stack was put there as it is. -/
theorem foldStep_of_folded {isTop : Bool} {p : Path} {kept : List Path}
    (h : Folded isTop (p :: kept)) : foldStep isTop kept p = p :: kept := by
  generalize hs : p :: kept = stack at h
  cases h with
  | parents n hn =>
    cases n with
    | zero => simp at hs
    | succ n =>
      rw [List.replicate_succ] at hs
      cases hs
      have ht : isTop = false := by
        cases isTop with
        | false => rfl
        | true => exact absurd (hn rfl) (by omega)
      rw [foldStep_parent_parents isTop n (fun h => by simp [ht] at h), ht]
      rfl
  | name hp _ =>
    cases hs
    exact foldStep_name isTop kept hp

theorem Folded.tail {isTop : Bool} {p : Path} {kept : List Path}
    (h : Folded isTop (p :: kept)) : Folded isTop kept := by
  generalize hs : p :: kept = stack at h
  cases h with
  | parents n hn =>
    cases n with
    | zero => simp at hs
    | succ n =>
      rw [List.replicate_succ] at hs
      cases hs
      exact .parents n (fun ht => absurd (hn ht) (by omega))
  | name _ hk =>
    cases hs
    exact hk

theorem Folded.of_append {isTop : Bool} : ∀ {upper lower : List Path},
    Folded isTop (upper ++ lower) → Folded isTop lower
  | [], _, h => h
  | _ :: _, _, h => Folded.of_append h.tail

theorem foldl_foldStep_of_folded (isTop : Bool) : ∀ ps kept : List Path,
    Folded isTop (ps.reverse ++ kept) →
    ps.foldl (foldStep isTop) kept = ps.reverse ++ kept
  | [], _, _ => rfl
  | p :: ps, kept, h => by
      have h' : Folded isTop (ps.reverse ++ p :: kept) := by simpa using h
      rw [List.foldl_cons, foldStep_of_folded h'.of_append,
        foldl_foldStep_of_folded isTop ps (p :: kept) h']
      simp

theorem fold_of_folded {isTop : Bool} {ps : List Path}
    (h : Folded isTop ps.reverse) : fold isTop ps = ps := by
  rw [fold, foldl_foldStep_of_folded isTop ps [] (by simpa using h)]
  simp

/-- A name at the bottom of a folded stack has only names above it, so the
stack is one under a top as well. -/
theorem Folded.above_name {isTop : Bool} {q : Path} (hq : IsName q) :
    ∀ {upper : List Path}, Folded isTop (upper ++ [q]) → Folded true upper
  | [], _ => .parents 0 (fun _ => rfl)
  | p :: upper, h => by
      generalize hs : p :: upper ++ [q] = stack at h
      cases h with
      | parents n _ =>
        have hm : q ∈ List.replicate n parent := by simp [← hs]
        exact absurd (List.eq_of_mem_replicate hm) hq.2.2
      | name hp hk =>
        cases hs
        exact .name hp (Folded.above_name hq hk)

/-! ## 2. Components without separators -/

/-- None of the components holds a separator. -/
def Plain (ps : List Path) : Prop :=
  ∀ p ∈ ps, ∀ c ∈ p, isSeparator c = false

theorem plain_components : ∀ p : Path, Plain (components p)
  | [] => by simp [Plain]
  | c :: rest => by
      have ih := plain_components rest
      by_cases hc : isSeparator c = true
      · rw [components_separator hc]
        intro p hp
        rcases List.mem_cons.1 hp with rfl | hp
        · simp
        · exact ih p hp
      · unfold components
        rw [if_neg hc]
        cases hr : components rest with
        | nil => exact absurd hr (components_ne_nil rest)
        | cons first others =>
          rw [hr] at ih
          intro p hp x hx
          rcases List.mem_cons.1 hp with rfl | hp
          · rcases List.mem_cons.1 hx with rfl | hx
            · simpa using hc
            · exact ih first (by simp) x hx
          · exact ih p (by simp [hp]) x hx

theorem plain_foldStep {isTop : Bool} {kept : List Path} {p : Path}
    (hk : Plain kept) (hp : ∀ c ∈ p, isSeparator c = false) :
    Plain (foldStep isTop kept p) := by
  intro q hq
  unfold foldStep at hq
  split at hq
  · exact hk q hq
  · split at hq
    · split at hq
      · split at hq
        · simp at hq
        · rcases List.mem_singleton.1 hq with rfl
          simp [parent, isSeparator]
      · split at hq
        · split at hq
          · exact hk q hq
          · rcases List.mem_cons.1 hq with rfl | hq
            · simp [parent, isSeparator]
            · exact hk q hq
        · exact hk q (List.mem_cons_of_mem _ hq)
    · rcases List.mem_cons.1 hq with rfl | hq
      · exact hp
      · exact hk q hq

theorem plain_foldl (isTop : Bool) : ∀ ps kept : List Path,
    Plain ps → Plain kept → Plain (ps.foldl (foldStep isTop) kept)
  | [], _, _, hk => hk
  | p :: ps, kept, hp, hk =>
      plain_foldl isTop ps _ (fun q hq => hp q (by simp [hq]))
        (plain_foldStep hk (hp p (by simp)))

theorem plain_fold (isTop : Bool) {ps : List Path} (h : Plain ps) :
    Plain (fold isTop ps) := by
  intro p hp
  exact plain_foldl isTop ps [] h (by simp [Plain]) p
    (List.mem_reverse.1 hp)

theorem backslash_not_mem_ofComponents : ∀ {ps : List Path}, Plain ps →
    '\\' ∉ ofComponents ps
  | [], _ => by simp [ofComponents]
  | [p], h => fun hm => by simpa [isSeparator] using h p (by simp) _ hm
  | p :: q :: rest, h => by
      have ih := @backslash_not_mem_ofComponents (q :: rest)
        fun r hr => h r (List.mem_cons_of_mem p hr)
      intro hm
      rw [ofComponents, List.mem_append, List.mem_cons] at hm
      rcases hm with hm | hm | hm
      · simpa [isSeparator] using h p (by simp) _ hm
      · exact absurd hm (by decide)
      · exact ih hm

theorem backslash_not_mem_text (root : Root) : '\\' ∉ root.text := by
  cases root with
  | none => simp [Root.text]
  | top => simp [Root.text]
  | drive c =>
    by_cases hc : isSeparator c = true
    · simp [Root.text, hc]
    · simp only [isSeparator, Bool.or_eq_true, decide_eq_true_eq, not_or] at hc
      simp [Root.text, isSeparator, hc, Ne.symm hc.2]

/-- A folded path has one kind of separator. -/
theorem backslash_not_mem_collapse (p : Path) : '\\' ∉ collapse p := by
  rw [collapse, List.mem_append, not_or]
  exact ⟨backslash_not_mem_text _, backslash_not_mem_ofComponents
    (plain_fold _ (plain_components _))⟩

theorem Folded.ne_nil {isTop : Bool} {kept : List Path}
    (h : Folded isTop kept) : ∀ p ∈ kept, p ≠ [] := by
  induction h with
  | parents n _ =>
    intro p hp
    rw [List.eq_of_mem_replicate hp]
    decide
  | name hq _ ih =>
    intro p hp
    rcases List.mem_cons.1 hp with rfl | hp
    · exact hq.1
    · exact ih p hp

/-- Folded components are found again after joining and folding. -/
theorem fold_components_ofComponents {isTop : Bool} {ps : List Path}
    (hf : Folded isTop ps.reverse) (hp : Plain ps) :
    fold isTop (components (ofComponents ps)) = ps := by
  by_cases hn : ps = []
  · subst hn
    simp [ofComponents, fold, foldStep]
  · rw [components_ofComponents ps hn hp, fold_of_folded hf]

/-! ## 3. Reading a folded path again -/

/-- A root as a path can have it: only ASCII characters name drives. -/
def Root.Legal : Root → Prop
  | .none => True
  | .top => True
  | .drive c => c.toNat < 0x80

theorem splitTop_legal : ∀ p : Path, (splitTop p).1.Legal
  | [] => trivial
  | c :: rest => by
      by_cases hc : isSeparator c = true
      · simp [splitTop, hc, Root.Legal]
      · simp [splitTop, hc, Root.Legal]

theorem splitRoot_legal (p : Path) : (splitRoot p).1.Legal := by
  unfold splitRoot
  split
  · split
    · rename_i h
      exact h.1
    · exact splitTop_legal _
  · exact splitTop_legal _

/-- Whether a path begins with a drive. -/
def HasDrive (p : Path) : Prop :=
  ∃ c s rest, p = c :: ':' :: s :: rest ∧ c.toNat < 0x80 ∧
    isSeparator s = true

theorem splitRoot_drive {c s : Char} (rest : Path) (hc : c.toNat < 0x80)
    (hs : isSeparator s = true) :
    splitRoot (c :: ':' :: s :: rest) = (.drive c, rest) := by
  simp [splitRoot, hc, hs]

theorem splitRoot_of_not_hasDrive {p : Path} (h : ¬ HasDrive p) :
    splitRoot p = splitTop p := by
  unfold splitRoot
  split
  · rename_i c s rest
    rw [if_neg]
    exact fun hd => h ⟨c, s, rest, rfl, hd⟩
  · rfl

theorem splitTop_separator {c : Char} (rest : Path)
    (h : isSeparator c = true) : splitTop (c :: rest) = (.top, rest) := by
  rw [splitTop, if_pos h]

theorem splitTop_of_head {p : Path}
    (h : ∀ c rest, p = c :: rest → isSeparator c = false) :
    splitTop p = (.none, p) := by
  cases p with
  | nil => rfl
  | cons c rest => simp [splitTop, h c rest rfl]

section Joined

variable {ps : List Path} (hp : Plain ps) (hn : ∀ p ∈ ps, p ≠ [])

include hp hn

/-- Joined components do not begin with a separator. -/
theorem isSeparator_head_ofComponents (c : Char) (rest : Path)
    (h : ofComponents ps = c :: rest) : isSeparator c = false := by
  cases ps with
  | nil => simp [ofComponents] at h
  | cons p ps =>
    cases p with
    | nil => exact absurd rfl (hn [] (by simp))
    | cons x p =>
      have hx := hp (x :: p) (by simp) x (by simp)
      cases ps with
      | nil =>
        cases h
        exact hx
      | cons q ps =>
        cases h
        exact hx

/-- What stands before the first separator is the first component. -/
theorem eq_cons_of_ofComponents (first : Path) {s : Char} {rest : Path}
    (hf : ∀ c ∈ first, isSeparator c = false) (hs : isSeparator s = true)
    (h : ofComponents ps = first ++ s :: rest) :
    s = '/' ∧ ∃ others, ps = first :: others ∧ rest = ofComponents others := by
  have hne : ps ≠ [] := by
    rintro rfl
    simp [ofComponents] at h
  have hps := components_ofComponents ps hne hp
  rw [h, components_append hs first rest hf] at hps
  cases hr : components rest with
  | nil => exact absurd hr (components_ne_nil rest)
  | cons q others =>
    rw [hr] at hps
    subst hps
    rw [ofComponents] at h
    have h := List.append_cancel_left h
    cases h
    exact ⟨rfl, q :: others, rfl, rfl⟩

end Joined

/-- However a folded path is read, its root and its components spell the
same path, and the components are a folded stack. -/
theorem exists_splitRoot {root : Root} {ps : List Path} (hl : root.Legal)
    (hf : Folded root.isTop ps.reverse) (hp : Plain ps) :
    ∃ root' ps', splitRoot (root.text ++ ofComponents ps)
        = (root', ofComponents ps') ∧
      root'.text ++ ofComponents ps' = root.text ++ ofComponents ps ∧
      Folded root'.isTop ps'.reverse ∧ Plain ps' := by
  have hn : ∀ p ∈ ps, p ≠ [] := fun p hm =>
    hf.ne_nil p (List.mem_reverse.2 hm)
  cases root with
  | none =>
    by_cases hd : HasDrive (ofComponents ps)
    · -- The first component is read as a drive.
      obtain ⟨c, s, rest, hq, hc, hs⟩ := hd
      have hcs := isSeparator_head_ofComponents hp hn c _ hq
      obtain ⟨rfl, others, rfl, rfl⟩ := eq_cons_of_ofComponents hp hn
        [c, ':'] (by simp [hcs]; decide) hs hq
      refine ⟨.drive c, others, ?_, ?_, ?_, fun p hm => hp p (by simp [hm])⟩
      · rw [Root.text, List.nil_append, hq, splitRoot_drive _ hc hs]
      · simp [Root.text, hcs, hq]
      · rw [List.reverse_cons] at hf
        exact hf.above_name (by simp [IsName, here, parent])
    · refine ⟨.none, ps, ?_, rfl, hf, hp⟩
      rw [Root.text, List.nil_append, splitRoot_of_not_hasDrive hd,
        splitTop_of_head (isSeparator_head_ofComponents hp hn)]
  | top =>
    by_cases hd : HasDrive ('/' :: ofComponents ps)
    · -- The top and a first component `:` are read as a drive.
      obtain ⟨c, s, rest, hq, hc, hs⟩ := hd
      obtain ⟨rfl, ht⟩ := List.cons.inj hq
      obtain ⟨rfl, others, rfl, rfl⟩ := eq_cons_of_ofComponents hp hn
        [':'] (by simp [isSeparator]) hs ht
      refine ⟨.drive '/', others, ?_, ?_, ?_, fun p hm => hp p (by simp [hm])⟩
      · rw [Root.text, List.singleton_append, hq, splitRoot_drive _ hc hs]
      · simp [Root.text, hq]
      · rw [List.reverse_cons] at hf
        exact hf.above_name (by simp [IsName, here, parent])
    · refine ⟨.top, ps, ?_, rfl, hf, hp⟩
      rw [Root.text, List.singleton_append, splitRoot_of_not_hasDrive hd,
        splitTop_separator _ (by decide)]
  | drive c =>
    refine ⟨.drive (if isSeparator c then '/' else c), ps, ?_, ?_, hf, hp⟩
    · refine splitRoot_drive _ ?_ (by decide)
      split
      · decide
      · exact hl
    · by_cases hc : isSeparator c = true
      · simp [Root.text, hc]
      · simp [Root.text, hc]

/-! ## 4. Folding twice -/

/-- A root and a folded stack over it spell a path that is folded
already. -/
theorem collapse_ofComponents {root : Root} {ps : List Path}
    (hl : root.Legal) (hf : Folded root.isTop ps.reverse) (hp : Plain ps) :
    collapse (root.text ++ ofComponents ps) = root.text ++ ofComponents ps := by
  obtain ⟨root', ps', hs, ht, hf', hp'⟩ := exists_splitRoot hl hf hp
  rw [collapse, hs]
  show root'.text ++ ofComponents (fold root'.isTop _) = _
  rw [fold_components_ofComponents hf' hp', ht]

theorem collapse_collapse (p : Path) : collapse (collapse p) = collapse p :=
  collapse_ofComponents (splitRoot_legal p) (folded_fold _ _)
    (plain_fold _ (plain_components _))

theorem collapse_join (current relative : Path) :
    collapse (join current relative) = join current relative :=
  collapse_collapse _

end IncludeFlattener.Path
