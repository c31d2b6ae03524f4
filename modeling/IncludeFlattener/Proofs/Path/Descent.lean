/-
IncludeFlattener.Proofs.Path.Descent — a quoted path that only goes down is
put behind the folded directory.

A target is folded as one text with the directory in front of it. Where no
component of the quoted path is `..`, nothing of the directory is folded away
again: what stays is the directory of the folded file and the components of
the quoted path that lead anywhere (`join_of_descends`). It makes no
difference then whether a first component is read as the root of a drive or as
a name, for that is told apart only by going up, or by writing nothing behind
it.

The root of the top is the one thing left. A quoted path that begins with a
separator brings it in if there is no directory in front.
-/
import IncludeFlattener.Proofs.Path.LexicalWalk
namespace IncludeFlattener.Path

/-! ## 1. Directories of joined texts -/

theorem IsDirectory.append {d d' : Path} (h : IsDirectory d)
    (h' : IsDirectory d') : IsDirectory (d ++ d') := by
  obtain rfl | ⟨e, c, hc, rfl⟩ := h'
  · rwa [List.append_nil]
  · exact .inr ⟨d ++ e, c, hc, (List.append_assoc _ _ _).symm⟩

section Split

variable {d name : Path} (hd : IsDirectory d)
  (hn : ∀ c ∈ name, isSeparator c = false)

include hd hn

/-- A path is split between its directory and its name in one way only. -/
theorem IsDirectory.directory_append : directory (d ++ name) = d := by
  have hname : ∀ c ∈ name.reverse, (!isSeparator c) = true := by
    simpa using hn
  rw [directory, List.reverse_append, List.dropWhile_append_of_pos hname]
  obtain rfl | ⟨d, c, hc, rfl⟩ := hd
  · rfl
  · simp [hc]

theorem IsDirectory.fileName_append : fileName (d ++ name) = name := by
  have h := directory_append_fileName (d ++ name)
  rw [hd.directory_append hn] at h
  exact List.append_cancel_left h

end Split

theorem IsDirectory.fileName_append_path {d : Path} (hd : IsDirectory d)
    (p : Path) : fileName (d ++ p) = fileName p := by
  conv =>
    lhs
    rw [← directory_append_fileName p, ← List.append_assoc]
  exact (hd.append (isDirectory_directory p)).fileName_append
    isSeparator_of_mem_fileName

/-- The name is the last component. -/
theorem exists_components_eq (p : Path) :
    ∃ ps, components p = ps ++ [fileName p] := by
  obtain ⟨ps, -, h⟩ := (isDirectory_directory p).exists_components
  have h := h (fileName p)
  rw [directory_append_fileName,
    components_of_no_separator _ isSeparator_of_mem_fileName] at h
  exact ⟨ps, h⟩

/-- The text of components with others behind them. -/
def leading (ps : List Path) : Path := ps.flatMap (· ++ ['/'])

theorem ofComponents_cons {ps : List Path} (h : ps ≠ []) (p : Path) :
    ofComponents (p :: ps) = p ++ '/' :: ofComponents ps := by
  obtain ⟨q, rest, rfl⟩ := List.exists_cons_of_ne_nil h
  rfl

theorem ofComponents_append {qs : List Path} (h : qs ≠ []) :
    ∀ ps : List Path,
    ofComponents (ps ++ qs) = leading ps ++ ofComponents qs
  | [] => rfl
  | p :: ps => by
      rw [List.cons_append, ofComponents_cons
        (List.append_ne_nil_of_right_ne_nil ps h), ofComponents_append h ps]
      simp [leading]

theorem isDirectory_leading (root : Root) (ps : List Path) :
    IsDirectory (root.text ++ leading ps) := by
  have hroot : IsDirectory root.text := by
    cases root with
    | none => exact .inl rfl
    | top => exact .inr ⟨[], '/', by decide, rfl⟩
    | drive c => exact .inr ⟨[_, ':'], '/', by decide, rfl⟩
  refine hroot.append ?_
  obtain rfl | ⟨ps, p, rfl⟩ := ps.eq_nil_or_concat
  · exact .inl rfl
  · exact .inr ⟨leading ps ++ p, '/', by decide, by simp [leading]⟩

/-! ## 2. Short directories -/

section Plain

variable {name : Path} (h : ∀ c ∈ name, isSeparator c = false)

include h

theorem fold_components_name (isTop : Bool) (hn : IsName name) :
    ofComponents (fold isTop (components name)) = name := by
  rw [components_of_no_separator name h, fold, List.foldl_cons,
    foldStep_name isTop [] hn]
  rfl

theorem collapse_of_plain (hn : IsName name) : collapse name = name := by
  rw [collapse, splitRoot_of_plain h]
  exact fold_components_name h _ hn

theorem collapse_separator_of_plain (hn : IsName name) {s : Char}
    (hs : isSeparator s = true) : collapse (s :: name) = '/' :: name := by
  rw [collapse, splitRoot_separator_of_plain h hs]
  exact congrArg ('/' :: ·) (fold_components_name h _ hn)

end Plain

section Key

variable {p : Path} (hn : IsName (fileName p))

include hn

theorem collapse_of_directory_nil (hd : directory p = []) :
    collapse p = fileName p := by
  calc collapse p = collapse (directory p ++ fileName p) := by
        rw [directory_append_fileName]
    _ = collapse (fileName p) := by rw [hd, List.nil_append]
    _ = fileName p := collapse_of_plain isSeparator_of_mem_fileName hn

theorem collapse_of_directory_separator {s : Char}
    (hs : isSeparator s = true) (hd : directory p = [s]) :
    collapse p = '/' :: fileName p := by
  calc collapse p = collapse (directory p ++ fileName p) := by
        rw [directory_append_fileName]
    _ = collapse (s :: fileName p) := by rw [hd, List.singleton_append]
    _ = '/' :: fileName p :=
        collapse_separator_of_plain isSeparator_of_mem_fileName hn hs

/-- The directory of a folded file is the place to which its directory
leads. -/
theorem Leads.directory_collapse {kept : List Path} (h : Leads p kept) :
    directory (collapse p)
      = (splitRoot (directory p)).1.text ++ leading kept.reverse := by
  rw [h.collapse_eq hn, List.reverse_cons, ofComponents_append (by simp),
    ← List.append_assoc]
  exact (isDirectory_leading _ _).directory_append isSeparator_of_mem_fileName

theorem directory_collapse_of_nil (hd : directory p = []) :
    directory (collapse p) = [] := by
  rw [collapse_of_directory_nil hn hd]
  exact IsDirectory.directory_append (.inl rfl) isSeparator_of_mem_fileName

theorem directory_collapse_of_separator {s : Char}
    (hs : isSeparator s = true) (hd : directory p = [s]) :
    directory (collapse p) = ['/'] := by
  rw [collapse_of_directory_separator hn hs hd]
  exact IsDirectory.directory_append (.inr ⟨[], '/', by decide, rfl⟩)
    isSeparator_of_mem_fileName

end Key

/-! ## 3. Paths without a way up -/

/-- The path only goes down: no component is `..`, and the last one is a
name. -/
structure Descends (p : Path) : Prop where
  no_parent : parent ∉ components p
  isName : IsName (fileName p)

/-- The components that lead anywhere. -/
def steps (ps : List Path) : List Path := ps.filter fun p => p ≠ [] ∧ p ≠ here

theorem steps_cons_of_blank {p : Path} (h : p = [] ∨ p = here)
    (ps : List Path) : steps (p :: ps) = steps ps := by
  refine List.filter_cons_of_neg ?_
  rw [decide_eq_true_iff]
  exact fun hn => h.elim hn.1 hn.2

theorem steps_cons_of_ne {p : Path} (h : p ≠ [] ∧ p ≠ here)
    (ps : List Path) : steps (p :: ps) = p :: steps ps :=
  List.filter_cons_of_pos (decide_eq_true h)

theorem foldl_foldStep_of_no_parent (isTop : Bool) {ps : List Path}
    (h : parent ∉ ps) (kept : List Path) :
    ps.foldl (foldStep isTop) kept = (steps ps).reverse ++ kept := by
  induction ps generalizing kept with
  | nil => rfl
  | cons p ps ih =>
    rw [List.mem_cons, not_or] at h
    rw [List.foldl_cons, ih h.2]
    rcases blank_or_parent_or_isName p with hb | rfl | hn
    · rw [foldStep_blank isTop kept hb, steps_cons_of_blank hb]
    · exact absurd rfl h.1
    · rw [foldStep_name isTop kept hn, steps_cons_of_ne ⟨hn.1, hn.2.1⟩]
      simp

theorem fold_of_no_parent (isTop : Bool) {ps : List Path} (h : parent ∉ ps) :
    fold isTop ps = steps ps := by
  rw [fold, foldl_foldStep_of_no_parent isTop h]
  simp

section Descends

variable {p r : Path}

theorem Descends.steps_ne_nil (h : Descends r) : steps (components r) ≠ [] := by
  obtain ⟨ps, hps⟩ := exists_components_eq r
  have hm : fileName r ∈ steps (components r) := by
    rw [hps]
    exact List.mem_filter.2
      ⟨by simp, decide_eq_true ⟨h.isName.1, h.isName.2.1⟩⟩
  exact List.ne_nil_of_mem hm

/-- What stands behind a directory without `..` goes down if the whole
does. -/
theorem Descends.of_append {d : Path} (hd : IsDirectory d)
    (h : Descends (d ++ r)) : Descends r := by
  obtain ⟨ds, -, hds⟩ := hd.exists_components
  obtain ⟨hno, hn⟩ := h
  rw [hds, List.mem_append, not_or] at hno
  rw [hd.fileName_append_path] at hn
  exact ⟨hno.2, hn⟩

theorem Descends.cons_separator (h : Descends r) {s : Char}
    (hs : isSeparator s = true) : Descends (s :: r) := by
  have hd : IsDirectory [s] := .inr ⟨[], s, hs, rfl⟩
  refine ⟨?_, ?_⟩
  · rw [components_separator hs, List.mem_cons, not_or]
    exact ⟨by decide, h.no_parent⟩
  · have hn := hd.fileName_append_path r
    rw [List.singleton_append] at hn
    rw [hn]
    exact h.isName

/-- Its root is a separator in front, and a drive is a component like any
other. -/
theorem collapse_of_descends (h : Descends r) :
    collapse r = (if startsAtTop r then ['/'] else [])
      ++ ofComponents (steps (components r)) := by
  by_cases hd : HasDrive r
  · obtain ⟨c, s, rest, rfl, hc, hs⟩ := hd
    have hdir : IsDirectory [c, ':', s] := .inr ⟨[c, ':'], s, hs, rfl⟩
    have hrest : Descends rest := h.of_append hdir
    have hne := hrest.steps_ne_nil
    rw [collapse, splitRoot_drive rest hc hs]
    simp only [Root.isTop, Root.text, fold_of_no_parent true hrest.no_parent]
    by_cases hsep : isSeparator c = true
    · have hcomp : components (':' :: s :: rest) = [':'] :: components rest :=
        components_append hs [':'] rest (by simp [isSeparator])
      rw [components_separator hsep, hcomp, steps_cons_of_blank (.inl rfl),
        steps_cons_of_ne (by decide), ofComponents_cons hne]
      simp [startsAtTop, hsep]
    · have hcomp : components (c :: ':' :: s :: rest)
          = [c, ':'] :: components rest := by
        refine components_append hs [c, ':'] rest ?_
        simp [hsep]
        decide
      rw [hcomp, steps_cons_of_ne (by simp [here]), ofComponents_cons hne]
      simp [startsAtTop, hsep]
  · have hfold : fold (splitTop r).1.isTop (components (splitTop r).2)
        = steps (components r) := by
      rw [fold, isTop_splitTop, foldl_components_splitTop, ← fold,
        fold_of_no_parent _ h.no_parent]
    rw [collapse, splitRoot_of_not_hasDrive hd]
    simp only [hfold]
    rw [splitTop_fst]
    cases startsAtTop r <;> rfl

/-- **Down from the folded directory.** The target of a path that only goes
down is spelled by the directory of the folded file and the components of the
path. Only a leading separator of a path that no directory stands in front of
counts. -/
theorem join_of_descends (hn : IsName (fileName p)) (h : Descends r) :
    join p r = (if directory p = [] ∧ startsAtTop r = true then ['/'] else [])
      ++ (directory (collapse p) ++ ofComponents (steps (components r))) := by
  by_cases hd : directory p = []
  · rw [join, hd, List.nil_append, collapse_of_descends h,
      directory_collapse_of_nil hn hd, List.nil_append]
    simp
  rw [if_neg fun h => hd h.1, List.nil_append]
  obtain hk | hk | ⟨s, hs, hk⟩ := (isDirectory_directory p).keepsRoot_or_short r
  · obtain ⟨kept, hl⟩ := exists_leads p
    rw [hl.join_eq r hk, hl.directory_collapse hn,
      foldl_foldStep_of_no_parent _ h.no_parent, List.reverse_append,
      List.reverse_reverse, ofComponents_append h.steps_ne_nil,
      List.append_assoc]
  · exact absurd hk hd
  · rw [join, hk, List.singleton_append,
      collapse_of_descends (h.cons_separator hs),
      directory_collapse_of_separator hn hs hk, components_separator hs,
      steps_cons_of_blank (.inl rfl)]
    simp [startsAtTop, hs]

end Descends

end IncludeFlattener.Path
