/-
IncludeFlattener.Proofs.Path.Spelling — a target does not depend on how the
file that names it is spelled.

A target is spelled as the directory of the current file with the quoted
path behind it, and the whole is folded at once. Folding goes from left to
right, so the directory leads to a root and a stack of components, and the
quoted path is folded on from there (`Leads`), unless the two together begin
with another root than the directory alone (`KeepsRoot`). The folded path of
the current file is made of the same root and stack, with its own name on
top. A root and a stack can be read off the path that they spell
(`text_append_inj`), so two spellings of one file lead to the same place, and
`join_eq_join` follows.

The quoted path must be `Rootless` there: one that begins with a separator is
read as a root behind an empty directory, but not behind `./`, and a colon
can turn the first component into a drive.
-/
import Mathlib.Data.List.TakeWhile
import IncludeFlattener.Proofs.Path.Normal
namespace IncludeFlattener.Path

/-! ## 1. Components of joined texts -/

/-- A separator parts the components before it from those behind it. -/
theorem components_append_separator {c : Char} (hc : isSeparator c = true)
    (rest : Path) : ∀ p : Path,
    components (p ++ c :: rest) = components p ++ components rest
  | [] => components_separator hc rest
  | x :: p => by
      have ih := components_append_separator hc rest p
      by_cases hx : isSeparator x = true
      · rw [List.cons_append, components_separator hx,
          components_separator hx, ih]
        rfl
      · rw [List.cons_append, components, components, if_neg hx, if_neg hx,
          ih]
        cases hp : components p with
        | nil => exact absurd hp (components_ne_nil p)
        | cons first others => rfl

/-- Components can be read off the path that they make up, unless one of them
is empty. -/
theorem ofComponents_inj {ps qs : List Path} (hp : Plain ps) (hq : Plain qs)
    (hpn : ∀ p ∈ ps, p ≠ []) (hqn : ∀ q ∈ qs, q ≠ [])
    (h : ofComponents ps = ofComponents qs) : ps = qs := by
  by_cases hps : ps = []
  · by_cases hqs : qs = []
    · rw [hps, hqs]
    · have hc := components_ofComponents qs hqs hq
      rw [← h, hps] at hc
      exact absurd rfl (hqn [] (hc ▸ by simp [ofComponents]))
  · by_cases hqs : qs = []
    · have hc := components_ofComponents ps hps hp
      rw [h, hqs] at hc
      exact absurd rfl (hpn [] (hc ▸ by simp [ofComponents]))
    · rw [← components_ofComponents ps hps hp, h,
        components_ofComponents qs hqs hq]

/-- A root that is no drive, and the components behind it, can be read off the
path that they spell. -/
theorem text_append_inj {root root' : Root} {ps qs : List Path}
    (hr : ∀ c, root ≠ .drive c) (hr' : ∀ c, root' ≠ .drive c)
    (hp : Plain ps) (hq : Plain qs) (hpn : ∀ p ∈ ps, p ≠ [])
    (hqn : ∀ q ∈ qs, q ≠ [])
    (h : root.text ++ ofComponents ps = root'.text ++ ofComponents qs) :
    root = root' ∧ ps = qs := by
  cases root with
  | drive c => exact absurd rfl (hr c)
  | none =>
    cases root' with
    | drive c => exact absurd rfl (hr' c)
    | none => exact ⟨rfl, ofComponents_inj hp hq hpn hqn h⟩
    | top => cases isSeparator_head_ofComponents hp hpn '/' _ h
  | top =>
    cases root' with
    | drive c => exact absurd rfl (hr' c)
    | none => cases isSeparator_head_ofComponents hq hqn '/' _ h.symm
    | top =>
      exact ⟨rfl, ofComponents_inj hp hq hpn hqn (List.cons.inj h).2⟩

/-! ## 2. Directories -/

/-- Nothing stands behind the last separator. -/
def IsDirectory (d : Path) : Prop :=
  d = [] ∨ ∃ d' c, isSeparator c = true ∧ d = d' ++ [c]

theorem isDirectory_directory (p : Path) : IsDirectory (directory p) := by
  unfold directory
  cases hd : p.reverse.dropWhile fun c => !isSeparator c with
  | nil => exact .inl rfl
  | cons c rest =>
    have hne : (p.reverse.dropWhile fun c => !isSeparator c) ≠ [] := by
      rw [hd]
      exact List.cons_ne_nil c rest
    have hc := List.head_dropWhile_not _ hne
    refine .inr ⟨rest.reverse, c, ?_, by simp⟩
    simpa [hd] using hc

theorem IsDirectory.tail {c : Char} {d : Path} (h : IsDirectory (c :: d)) :
    IsDirectory d := by
  obtain h | ⟨d', x, hx, h⟩ := h
  · cases h
  · cases d' with
    | nil =>
      cases h
      exact .inl rfl
    | cons y d' =>
      cases h
      exact .inr ⟨d', x, hx, rfl⟩

/-- What stands behind a directory has its own components. -/
theorem IsDirectory.exists_components {d : Path} (h : IsDirectory d) :
    ∃ ds, Plain ds ∧ ∀ p, components (d ++ p) = ds ++ components p := by
  obtain rfl | ⟨d', c, hc, rfl⟩ := h
  · exact ⟨[], by simp [Plain], fun p => rfl⟩
  · refine ⟨components d', plain_components d', fun p => ?_⟩
    rw [List.append_assoc, List.singleton_append,
      components_append_separator hc]

theorem isSeparator_of_mem_fileName {p : Path} :
    ∀ c ∈ fileName p, isSeparator c = false := by
  intro c hc
  simpa using List.mem_takeWhile_imp (List.mem_reverse.1 hc)

/-! ## 3. Roots of joined texts -/

/-- What stands behind a directory leaves its root as it is. -/
def KeepsRoot (d p : Path) : Prop :=
  splitRoot (d ++ p) = ((splitRoot d).1, (splitRoot d).2 ++ p)

theorem keepsRoot_of_hasDrive_imp {d p : Path} (hn : d ≠ [])
    (h : HasDrive (d ++ p) → HasDrive d) : KeepsRoot d p := by
  unfold KeepsRoot
  by_cases hd : HasDrive d
  · obtain ⟨c, s, rest, rfl, hc, hs⟩ := hd
    rw [splitRoot_drive rest hc hs]
    exact splitRoot_drive (rest ++ p) hc hs
  · rw [splitRoot_of_not_hasDrive hd, splitRoot_of_not_hasDrive (mt h hd)]
    obtain ⟨c, d, rfl⟩ := List.exists_cons_of_ne_nil hn
    by_cases hc : isSeparator c = true
    · simp [splitTop, hc]
    · simp [splitTop, hc]

/-- A root takes three characters at most, and none of them but the colon in
the middle of a drive is one. So the root of a directory is complete unless
the directory is empty or one separator. -/
theorem IsDirectory.keepsRoot_or_short {d : Path} (h : IsDirectory d)
    (p : Path) :
    KeepsRoot d p ∨ d = [] ∨ ∃ s, isSeparator s = true ∧ d = [s] := by
  obtain rfl | ⟨d, s, hs, rfl⟩ := h
  · exact .inr (.inl rfl)
  by_cases hd : d = []
  · subst hd
    exact .inr (.inr ⟨s, hs, rfl⟩)
  refine .inl (keepsRoot_of_hasDrive_imp (by simp) ?_)
  rintro ⟨c, t, rest, hp, hc, ht⟩
  match d with
  | [x] =>
    simp only [List.cons_append, List.cons.injEq] at hp
    obtain ⟨-, rfl, -⟩ := hp
    exact absurd hs (by decide)
  | [x, y] =>
    simp only [List.cons_append, List.nil_append, List.cons.injEq] at hp
    obtain ⟨rfl, rfl, rfl, -⟩ := hp
    exact ⟨x, s, [], rfl, hc, hs⟩
  | x :: y :: z :: d =>
    simp only [List.cons_append, List.cons.injEq] at hp
    obtain ⟨rfl, rfl, rfl, -⟩ := hp
    exact ⟨x, z, d ++ [s], rfl, hc, ht⟩

theorem isDirectory_splitTop {d : Path} (h : IsDirectory d) :
    IsDirectory (splitTop d).2 := by
  cases d with
  | nil => exact h
  | cons c d =>
    by_cases hc : isSeparator c = true
    · rw [splitTop_separator d hc]
      exact h.tail
    · rw [splitTop, if_neg hc]
      exact h

theorem isDirectory_splitRoot {d : Path} (h : IsDirectory d) :
    IsDirectory (splitRoot d).2 := by
  by_cases hd : HasDrive d
  · obtain ⟨c, s, rest, rfl, hc, hs⟩ := hd
    rw [splitRoot_drive rest hc hs]
    exact h.tail.tail.tail
  · rw [splitRoot_of_not_hasDrive hd]
    exact isDirectory_splitTop h

section Plain

variable {name : Path} (h : ∀ c ∈ name, isSeparator c = false)

include h

theorem not_hasDrive_of_plain : ¬ HasDrive name := by
  rintro ⟨c, s, rest, rfl, -, hs⟩
  rw [h s (by simp)] at hs
  cases hs

theorem splitRoot_of_plain : splitRoot name = (.none, name) := by
  rw [splitRoot_of_not_hasDrive (not_hasDrive_of_plain h), splitTop_of_head]
  rintro c rest rfl
  exact h c List.mem_cons_self

theorem splitRoot_separator_of_plain {s : Char} (hs : isSeparator s = true) :
    splitRoot (s :: name) = (.top, name) := by
  rw [splitRoot_of_not_hasDrive, splitTop_separator name hs]
  rintro ⟨c, t, rest, hp, -, ht⟩
  obtain ⟨rfl, rfl⟩ := List.cons.inj hp
  rw [h t (by simp)] at ht
  cases ht

theorem IsDirectory.keepsRoot_of_plain {d : Path} (hd : IsDirectory d) :
    KeepsRoot d name := by
  obtain hk | rfl | ⟨s, hs, rfl⟩ := hd.keepsRoot_or_short name
  · exact hk
  · exact splitRoot_of_plain h
  · refine (splitRoot_separator_of_plain h hs).trans ?_
    rw [@splitRoot_separator_of_plain [] (by simp) s hs]
    rfl

end Plain

/-! ## 4. Where a directory leads -/

/-- The directory of a path leads to its root and this stack of components,
innermost first, from which every path that leaves the root as it is is
folded on. -/
structure Leads (p : Path) (kept : List Path) : Prop where
  plain : Plain kept
  folded : Folded (splitRoot (directory p)).1.isTop kept
  join_eq : ∀ r, KeepsRoot (directory p) r →
    join p r = (splitRoot (directory p)).1.text ++ ofComponents
      ((components r).foldl (foldStep (splitRoot (directory p)).1.isTop)
        kept).reverse

theorem exists_leads (p : Path) : ∃ kept, Leads p kept := by
  obtain ⟨ds, hds, hcomp⟩ :=
    (isDirectory_splitRoot (isDirectory_directory p)).exists_components
  refine ⟨ds.foldl (foldStep _) [], plain_foldl _ ds [] hds (by simp [Plain]),
    folded_foldl _ ds [] (.parents 0 fun _ => rfl), ?_⟩
  intro r hr
  rw [join, collapse, hr]
  show _ ++ ofComponents (fold _ (components _)) = _
  rw [hcomp, fold, List.foldl_append]

section Name

variable {p q r : Path} {kept : List Path}

/-- A path that ends in a name folds to the place of its directory with this
name on top. -/
theorem Leads.collapse_eq (h : Leads p kept) (hn : IsName (fileName p)) :
    collapse p = (splitRoot (directory p)).1.text
      ++ ofComponents (fileName p :: kept).reverse := by
  have hj := h.join_eq (fileName p) ((isDirectory_directory
    p).keepsRoot_of_plain isSeparator_of_mem_fileName)
  rw [join, directory_append_fileName, components_of_no_separator _
    isSeparator_of_mem_fileName] at hj
  rw [hj, List.foldl_cons, List.foldl_nil, foldStep_name _ _ hn]

theorem Leads.plain_reverse (h : Leads p kept) :
    Plain (fileName p :: kept).reverse := by
  intro q hq
  rcases List.mem_cons.1 (List.mem_reverse.1 hq) with rfl | hq
  · exact isSeparator_of_mem_fileName
  · exact h.plain q hq

theorem Leads.ne_nil (h : Leads p kept) (hn : IsName (fileName p)) :
    ∀ q ∈ (fileName p :: kept).reverse, q ≠ [] := by
  intro q hq
  exact (Folded.name hn h.folded).ne_nil q (List.mem_reverse.1 hq)

theorem isTop_iff_text_ne_nil (root : Root) :
    root.isTop = true ↔ root.text ≠ [] := by
  cases root <;> simp [Root.isTop, Root.text]

theorem isTop_eq_of_text_eq {root root' : Root} (h : root.text = root'.text) :
    root.isTop = root'.isTop := by
  rw [Bool.eq_iff_iff, isTop_iff_text_ne_nil, isTop_iff_text_ne_nil, h]

/-- Two directories that lead to one place from the same root, and that both
keep it. -/
theorem join_eq_of_keepsRoot (hc : collapse p = collapse q)
    (hpn : IsName (fileName p)) (hqn : IsName (fileName q))
    (hp : KeepsRoot (directory p) r) (hq : KeepsRoot (directory q) r)
    (ht : (splitRoot (directory p)).1.text
      = (splitRoot (directory q)).1.text) : join p r = join q r := by
  obtain ⟨kept, hl⟩ := exists_leads p
  obtain ⟨kept', hl'⟩ := exists_leads q
  rw [hl.collapse_eq hpn, hl'.collapse_eq hqn, ht] at hc
  have hk := ofComponents_inj hl.plain_reverse hl'.plain_reverse
    (hl.ne_nil hpn) (hl'.ne_nil hqn) (List.append_cancel_left hc)
  obtain ⟨-, rfl⟩ := List.cons.inj (List.reverse_inj.1 hk)
  rw [hl.join_eq r hp, hl'.join_eq r hq, ht, isTop_eq_of_text_eq ht]

end Name

/-! ## 5. Paths without drives -/

/-- The path has no root of its own, also where it stands behind a
directory. -/
structure Rootless (p : Path) : Prop where
  no_colon : ':' ∉ p
  no_top : ∀ c rest, p = c :: rest → isSeparator c = false

theorem not_hasDrive_of_no_colon {p : Path} (h : ':' ∉ p) : ¬ HasDrive p := by
  rintro ⟨c, s, rest, rfl, -, -⟩
  simp at h

theorem splitTop_ne_drive (p : Path) (c : Char) :
    (splitTop p).1 ≠ .drive c := by
  cases p with
  | nil => simp [splitTop]
  | cons x p =>
    rw [splitTop]
    split
    · simp
    · simp

theorem splitRoot_ne_drive {p : Path} (h : ':' ∉ p) (c : Char) :
    (splitRoot p).1 ≠ .drive c := by
  rw [splitRoot_of_not_hasDrive (not_hasDrive_of_no_colon h)]
  exact splitTop_ne_drive p c

theorem keepsRoot_of_no_colon {d p : Path} (hn : d ≠ []) (hd : ':' ∉ d)
    (hp : ':' ∉ p) : KeepsRoot d p := by
  refine keepsRoot_of_hasDrive_imp hn fun h => ?_
  refine absurd h (not_hasDrive_of_no_colon ?_)
  rw [List.mem_append, not_or]
  exact ⟨hd, hp⟩

theorem keepsRoot_of_rootless {d p : Path} (hd : ':' ∉ d) (hp : Rootless p) :
    KeepsRoot d p := by
  by_cases hn : d = []
  · rw [hn, KeepsRoot, List.nil_append, splitRoot_of_not_hasDrive
      (not_hasDrive_of_no_colon hp.no_colon), splitTop_of_head hp.no_top]
    rfl
  · exact keepsRoot_of_no_colon hn hd hp.no_colon

theorem no_colon_directory {p : Path} (h : ':' ∉ p) : ':' ∉ directory p := by
  intro hm
  rw [← directory_append_fileName p] at h
  exact h (List.mem_append_left _ hm)

/-- Without drives, two spellings of a file have the same targets wherever
both directories keep their roots. -/
theorem join_eq_of_no_colon {p q r : Path} (hc : collapse p = collapse q)
    (hp : ':' ∉ p) (hq : ':' ∉ q) (hpn : IsName (fileName p))
    (hqn : IsName (fileName q)) (hkp : KeepsRoot (directory p) r)
    (hkq : KeepsRoot (directory q) r) : join p r = join q r := by
  obtain ⟨kept, hl⟩ := exists_leads p
  obtain ⟨kept', hl'⟩ := exists_leads q
  have h := hc
  rw [hl.collapse_eq hpn, hl'.collapse_eq hqn] at h
  obtain ⟨hroot, -⟩ := text_append_inj
    (splitRoot_ne_drive (no_colon_directory hp))
    (splitRoot_ne_drive (no_colon_directory hq)) hl.plain_reverse
    hl'.plain_reverse (hl.ne_nil hpn) (hl'.ne_nil hqn) h
  exact join_eq_of_keepsRoot hc hpn hqn hkp hkq (congrArg Root.text hroot)

/-- **One file, one target.** Two spellings of a file that end in a name have
the same targets. -/
theorem join_eq_join {p q r : Path} (hc : collapse p = collapse q)
    (hp : ':' ∉ p) (hq : ':' ∉ q) (hpn : IsName (fileName p))
    (hqn : IsName (fileName q)) (hr : Rootless r) : join p r = join q r :=
  join_eq_of_no_colon hc hp hq hpn hqn
    (keepsRoot_of_rootless (no_colon_directory hp) hr)
    (keepsRoot_of_rootless (no_colon_directory hq) hr)

/-- A leading separator makes a difference: it stands first behind no
directory, and is one of two separators behind `./`. -/
example : join ['a'] ['/', 'b'] = ['/', 'b'] ∧
    join ['.', '/', 'a'] ['/', 'b'] = ['b'] := by decide

end IncludeFlattener.Path
