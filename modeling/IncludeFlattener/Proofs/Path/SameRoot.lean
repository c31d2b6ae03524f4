/-
IncludeFlattener.Proofs.Path.SameRoot — when a target depends on how the file
that names it is spelled.

The directory of a file and a quoted path are put together as they are
spelled, and the root is read off the whole. So the quoted path can bring a
root of its own: behind no directory `/b` begins at the top, and behind `./`
it does not. The spelling of the file can bring one as well, for `C:/f` is on
a drive and `x/../C:/f` is not, although both fold to one path.

These are the only ways in which the spelling counts: two spellings of a file
that end in a name have the same target wherever the two wholes begin with
the same root (`join_eq_of_sameRoot`). If both directories keep their roots,
the quoted path is folded on from one place. A directory that does not is
empty or one separator. Two such directories are equal, as far as folding can
tell, and one such directory does not go together with one that keeps its
root, for there the key of the file begins with the longer root
(`keepsRoot_of_text_eq`).

Where no drive is in play, the first way is the only one, and it always
counts. That is so without colons, and also for a quoted path that only goes
down, since a drive can be told from a name only by going up
(`join_of_descends`).
-/
import IncludeFlattener.Proofs.Path.Descent
import IncludeFlattener.Proofs.Path.Shape
namespace IncludeFlattener.Path

/-! ## 1. Roots as they are written -/

/-- The two paths begin with the same root, if all separators count as
one. -/
def SameRoot (p q : Path) : Prop :=
  ∃ root root', SpellsRoot p root ∧ SpellsRoot q root' ∧
    normalizeSeparators root = normalizeSeparators root'

theorem SpellsRoot.normalizeSeparators_eq {p root : Path}
    (h : SpellsRoot p root) :
    normalizeSeparators root = (splitRoot p).1.text := by
  cases h with
  | none hd ht =>
    rw [splitRoot_of_not_hasDrive hd, splitTop_of_head ht]
    rfl
  | @top c rest hd hc =>
    rw [splitRoot_of_not_hasDrive hd, splitTop_separator rest hc]
    exact normalizeSeparators_of_isSeparator hc
  | @drive c s rest hc hs =>
    rw [splitRoot_drive rest hc hs]
    exact normalizeSeparators_drive c hs

theorem SameRoot.text_eq {p q : Path} (h : SameRoot p q) :
    (splitRoot p).1.text = (splitRoot q).1.text := by
  obtain ⟨root, root', hp, hq, hr⟩ := h
  rw [← hp.normalizeSeparators_eq, ← hq.normalizeSeparators_eq, hr]

theorem slash_mem_text {root : Root} (h : root.text ≠ []) :
    '/' ∈ root.text := by
  cases root with
  | none => exact absurd rfl h
  | top => simp [Root.text]
  | drive c => simp [Root.text]

theorem splitRoot_of_text_eq_nil {p : Path} (h : (splitRoot p).1.text = []) :
    splitRoot p = (.none, p) := by
  obtain ⟨root, hroot, htext, -⟩ := exists_spellsRoot p
  rw [h] at htext
  cases hroot with
  | none hd ht => rw [splitRoot_of_not_hasDrive hd, splitTop_of_head ht]
  | top => simp [normalizeSeparators] at htext
  | drive => simp [normalizeSeparators] at htext

/-! ## 2. Short directories -/

theorem lt_of_isSeparator {c : Char} (h : isSeparator c = true) :
    c.toNat < 0x80 := by
  simp only [isSeparator, Bool.or_eq_true, decide_eq_true_eq] at h
  obtain rfl | rfl := h
  · decide
  · decide

/-- Behind one separator stands the rest of a drive, or the separator is the
root. -/
theorem splitRoot_separator {s : Char} (hs : isSeparator s = true) (p : Path) :
    (∃ t rest, isSeparator t = true ∧ p = ':' :: t :: rest ∧
      splitRoot (s :: p) = (.drive s, rest)) ∨
    ((∀ t rest, isSeparator t = true → p ≠ ':' :: t :: rest) ∧
      splitRoot (s :: p) = (.top, p)) := by
  by_cases hd : ∃ t rest, isSeparator t = true ∧ p = ':' :: t :: rest
  · obtain ⟨t, rest, ht, rfl⟩ := hd
    exact .inl ⟨t, rest, ht, rfl,
      splitRoot_drive rest (lt_of_isSeparator hs) ht⟩
  · refine .inr ⟨fun t rest ht hp => hd ⟨t, rest, ht, hp⟩, ?_⟩
    rw [splitRoot_of_not_hasDrive, splitTop_separator p hs]
    rintro ⟨c, t, rest, hp, -, ht⟩
    exact hd ⟨t, rest, ht, (List.cons.inj hp).2⟩

/-- It makes no difference which separator stands in front. -/
theorem collapse_cons_separator {s t : Char} (hs : isSeparator s = true)
    (ht : isSeparator t = true) (p : Path) :
    collapse (s :: p) = collapse (t :: p) := by
  unfold collapse
  obtain ⟨u, rest, hu, rfl, hp⟩ | ⟨hno, hp⟩ := splitRoot_separator hs p
  · rw [hp, splitRoot_drive rest (lt_of_isSeparator ht) hu]
    simp [Root.text, Root.isTop, hs, ht]
  · obtain ⟨u, rest, hu, rfl, -⟩ | ⟨-, hp'⟩ := splitRoot_separator ht p
    · exact absurd rfl (hno u rest hu)
    · rw [hp, hp']

theorem slash_not_mem_of_plain {name : Path}
    (h : ∀ c ∈ name, isSeparator c = false) : '/' ∉ name := by
  intro hm
  exact absurd (h '/' hm) (by decide)

/-! ## 3. Two spellings of a file -/

section Spellings

variable {p q r : Path} (hc : collapse p = collapse q)
  (hpn : IsName (fileName p)) (hqn : IsName (fileName q))

include hc hpn hqn

/-- A file has no two spellings with short directories that differ in more
than the kind of a separator. -/
theorem join_eq_of_short
    (hp : directory p = [] ∨ ∃ s, isSeparator s = true ∧ directory p = [s])
    (hq : directory q = [] ∨ ∃ s, isSeparator s = true ∧ directory q = [s]) :
    join p r = join q r := by
  have hplain := slash_not_mem_of_plain (@isSeparator_of_mem_fileName p)
  have hqlain := slash_not_mem_of_plain (@isSeparator_of_mem_fileName q)
  unfold join
  obtain hp | ⟨s, hs, hp⟩ := hp <;> obtain hq | ⟨t, ht, hq⟩ := hq
  · rw [hp, hq]
  · rw [collapse_of_directory_nil hpn hp,
      collapse_of_directory_separator hqn ht hq] at hc
    rw [hc] at hplain
    exact absurd List.mem_cons_self hplain
  · rw [collapse_of_directory_separator hpn hs hp,
      collapse_of_directory_nil hqn hq] at hc
    rw [← hc] at hqlain
    exact absurd List.mem_cons_self hqlain
  · rw [hp, hq]
    exact collapse_cons_separator hs ht r

/-- If the wholes have the same root and one directory keeps its root, then so
does the other. -/
theorem keepsRoot_of_text_eq
    (ht : (splitRoot (directory p ++ r)).1.text
      = (splitRoot (directory q ++ r)).1.text)
    (hq : KeepsRoot (directory q) r) : KeepsRoot (directory p) r := by
  have hplain := slash_not_mem_of_plain (@isSeparator_of_mem_fileName p)
  obtain ⟨kept, hl⟩ := exists_leads q
  -- The key of the file begins with the root that the wholes have.
  have hkey := hl.collapse_eq hqn
  rw [← hc, show (splitRoot (directory q)).1 = (splitRoot _).1 from
    (congrArg Prod.fst hq).symm, ← ht] at hkey
  obtain hk | hp | ⟨s, hs, hp⟩ :=
    (isDirectory_directory p).keepsRoot_or_short r
  · exact hk
  · rw [collapse_of_directory_nil hpn hp, hp, List.nil_append] at hkey
    rw [KeepsRoot, hp]
    by_cases hr : (splitRoot r).1.text = []
    · exact splitRoot_of_text_eq_nil hr
    · rw [hkey] at hplain
      exact absurd (List.mem_append_left _ (slash_mem_text hr)) hplain
  · rw [collapse_of_directory_separator hpn hs hp, hp,
      List.singleton_append] at hkey
    rw [KeepsRoot, hp]
    obtain ⟨t, rest, -, -, hr⟩ | ⟨-, hr⟩ := splitRoot_separator hs r
    · rw [hr, Root.text, if_pos hs] at hkey
      rw [(List.cons.inj hkey).2] at hplain
      exact absurd (by simp) hplain
    · refine hr.trans ?_
      rw [@splitRoot_separator_of_plain [] (by simp) s hs]
      rfl

/-- Two spellings of a file have the same target where the wholes have the
same root. -/
theorem join_eq_of_text_eq
    (ht : (splitRoot (directory p ++ r)).1.text
      = (splitRoot (directory q ++ r)).1.text) : join p r = join q r := by
  by_cases hp : KeepsRoot (directory p) r
  · have hq := keepsRoot_of_text_eq hc.symm hqn hpn ht.symm hp
    refine join_eq_of_keepsRoot hc hpn hqn hp hq ?_
    rwa [hp, hq] at ht
  · have hq := mt (keepsRoot_of_text_eq hc hpn hqn ht) hp
    exact join_eq_of_short hc hpn hqn
      (((isDirectory_directory p).keepsRoot_or_short r).resolve_left hp)
      (((isDirectory_directory q).keepsRoot_or_short r).resolve_left hq)

/-- A leading separator of the quoted path is a root behind no directory
only. -/
theorem join_ne_of_directory_nil (hq : ':' ∉ q) (hr : ':' ∉ r)
    (ht : startsAtTop r = true) (hpd : directory p = [])
    (hqd : directory q ≠ []) : join p r ≠ join q r := by
  have hk := keepsRoot_of_no_colon hqd (no_colon_directory hq) hr
  obtain ⟨kept, hl⟩ := exists_leads q
  -- The key is a name, so the directory of `q` has no root.
  have hroot : (splitRoot (directory q)).1.text = [] := by
    by_contra hne
    have hkey := hl.collapse_eq hqn
    rw [← hc, collapse_of_directory_nil hpn hpd] at hkey
    refine slash_not_mem_of_plain (@isSeparator_of_mem_fileName p) ?_
    rw [hkey]
    exact List.mem_append_left _ (slash_mem_text hne)
  intro he
  rw [hl.join_eq r hk, hroot, List.nil_append, join, hpd, List.nil_append,
    collapse_eq_stack hr, splitTop_fst, if_pos ht] at he
  have hplain := plain_foldl (splitRoot (directory q)).1.isTop (components r)
    kept (plain_components r) hl.plain
  have hfolded := folded_foldl _ (components r) kept hl.folded
  cases isSeparator_head_ofComponents
    (fun x hx => hplain x (List.mem_reverse.1 hx))
    (fun x hx => hfolded.ne_nil x (List.mem_reverse.1 hx)) '/' _ he.symm

theorem join_eq_iff_of_no_colon (hp : ':' ∉ p) (hq : ':' ∉ q)
    (hr : ':' ∉ r) : join p r = join q r ↔
      (startsAtTop r = true → (directory p = [] ↔ directory q = [])) := by
  have hdp := no_colon_directory hp
  have hdq := no_colon_directory hq
  by_cases ht : startsAtTop r = true
  · simp only [ht, true_imp_iff]
    by_cases hpd : directory p = [] <;> by_cases hqd : directory q = []
    · simp [join, hpd, hqd]
    · simpa [hpd, hqd] using
        join_ne_of_directory_nil hc hpn hqn hq hr ht hpd hqd
    · simpa [hpd, hqd] using
        (join_ne_of_directory_nil hc.symm hqn hpn hp hr ht hqd hpd).symm
    · simpa [hpd, hqd] using join_eq_of_no_colon hc hp hq hpn hqn
        (keepsRoot_of_no_colon hpd hdp hr) (keepsRoot_of_no_colon hqd hdq hr)
  · have hroot : Rootless r := by
      refine ⟨hr, ?_⟩
      rintro c rest rfl
      simpa [startsAtTop] using ht
    exact iff_of_true (join_eq_join hc hp hq hpn hqn hroot)
      fun h => absurd h ht

theorem join_eq_iff_of_descends (hr : Descends r) : join p r = join q r ↔
    (startsAtTop r = true → (directory p = [] ↔ directory q = [])) := by
  rw [join_of_descends hpn hr, join_of_descends hqn hr, hc,
    List.append_left_inj]
  by_cases hpd : directory p = [] <;> by_cases hqd : directory q = [] <;>
    cases startsAtTop r <;> simp [hpd, hqd]

/-- **Only the root depends on the spelling.** Two spellings of a file that
end in a name have the same target for every quoted path that makes both
wholes begin with the same root. Without colons, and for a quoted path that
only goes down, they have the same target unless the path begins with a
separator and one of the two directories, but not the other, is empty; then
they have different ones. -/
theorem join_eq_of_sameRoot :
    (SameRoot (directory p ++ r) (directory q ++ r) → join p r = join q r) ∧
    ((':' ∉ p ∧ ':' ∉ q ∧ ':' ∉ r) ∨ Descends r →
      (join p r = join q r ↔ (startsAtTop r = true →
        (directory p = [] ↔ directory q = [])))) := by
  refine ⟨fun h => join_eq_of_text_eq hc hpn hqn h.text_eq, ?_⟩
  rintro (⟨hp, hq, hr⟩ | hr)
  · exact join_eq_iff_of_no_colon hc hpn hqn hp hq hr
  · exact join_eq_iff_of_descends hc hpn hqn hr

end Spellings

/-- Behind two spellings of one drive `/b` is no root of its own, and as long
as it is not left it can as well be a name. `/../b` leaves it. Behind two
directories that are spelled out and have no colon it names the same file, but
behind the empty one it begins at the top. -/
theorem join_eq_of_sameRoot_onDrive :
    (collapse "C:/x/../a".toList = collapse "C:\\a".toList ∧
      collapse "C:/x/../a".toList = collapse "x/../C:/a".toList ∧
      IsName (fileName "C:/x/../a".toList) ∧
      IsName (fileName "C:\\a".toList) ∧
      IsName (fileName "x/../C:/a".toList) ∧
      SameRoot "C:/x/..//b".toList "C:\\/b".toList ∧
      join "C:\\a".toList "/b".toList = "C:/b".toList ∧
      Descends "/b".toList ∧
      join "x/../C:/a".toList "/b".toList = "C:/b".toList) ∧
    collapse "./a".toList = collapse "x/../a".toList ∧
    collapse "./a".toList = collapse "a".toList ∧
    IsName (fileName "./a".toList) ∧
    IsName (fileName "x/../a".toList) ∧
    IsName (fileName "a".toList) ∧
    join "./a".toList "/../b".toList = join "x/../a".toList "/../b".toList ∧
    join "./a".toList "/../b".toList ≠ join "a".toList "/../b".toList := by
  have hc : collapse "C:/x/../a".toList = collapse "C:\\a".toList := by decide
  have hc' : collapse "C:/x/../a".toList = collapse "x/../C:/a".toList := by
    decide
  have hn : IsName (fileName "C:/x/../a".toList) ∧
      IsName (fileName "C:\\a".toList) ∧
      IsName (fileName "x/../C:/a".toList) := by decide
  obtain ⟨hp, hq, hq'⟩ := hn
  have hr : SameRoot "C:/x/..//b".toList "C:\\/b".toList :=
    ⟨_, _, .drive (by decide) (by decide), .drive (by decide) (by decide),
      by decide⟩
  have hd : Descends "/b".toList := ⟨by decide, by decide⟩
  have hjoin : join "C:/x/../a".toList "/b".toList = "C:/b".toList := by
    decide
  have hsame := (join_eq_of_sameRoot hc hp hq).1 hr
  have hdown := ((join_eq_of_sameRoot hc' hp hq').2 (.inr hd)).2 (by decide)
  refine ⟨⟨hc, hc', hp, hq, hq', hr, hsame.symm.trans hjoin, hd,
    hdown.symm.trans hjoin⟩, ?_⟩
  have hs : collapse "./a".toList = collapse "x/../a".toList := by decide
  have hs' : collapse "./a".toList = collapse "a".toList := by decide
  have hm : IsName (fileName "./a".toList) ∧
      IsName (fileName "x/../a".toList) ∧ IsName (fileName "a".toList) := by decide
  obtain ⟨hm, hm', hm''⟩ := hm
  have hspelled := (join_eq_of_sameRoot (r := "/../b".toList) hs hm hm').2
    (.inl ⟨by decide, by decide, by decide⟩)
  have hempty := (join_eq_of_sameRoot (r := "/../b".toList) hs' hm hm'').2
    (.inl ⟨by decide, by decide, by decide⟩)
  refine ⟨hs, hs', hm, hm', hm'', hspelled.2 (by decide), ?_⟩
  exact mt hempty.1 (by decide)

/-- **The spelling can bring another root.** The file `a` is also spelled
`./a`, and its directive `/b` names a file at the top under one spelling and
a file beside `a` under the other. The file `x/../C:/f` is also spelled
`C:/f`, and only under that spelling it is on a drive, which `..` does not
leave. -/
theorem join_spelled_apart :
    (collapse "a".toList = collapse "./a".toList ∧
      IsName (fileName "a".toList) ∧ IsName (fileName "./a".toList) ∧
      join "a".toList "/b".toList = "/b".toList ∧
      join "./a".toList "/b".toList = "b".toList) ∧
    (collapse "x/../C:/f".toList = collapse "C:/f".toList ∧
      IsName (fileName "x/../C:/f".toList) ∧
      IsName (fileName "C:/f".toList) ∧
      join "x/../C:/f".toList "../g".toList = "g".toList ∧
      join "C:/f".toList "../g".toList = "C:/g".toList) ∧
    ¬ ∀ p q r : Path, collapse p = collapse q → IsName (fileName p) →
      IsName (fileName q) → join p r = join q r := by
  have ha : collapse "a".toList = collapse "./a".toList := by decide
  have hp : IsName (fileName "a".toList) := by decide
  have hq : IsName (fileName "./a".toList) := by decide
  refine ⟨⟨ha, hp, hq, by decide, by decide⟩, ?_, fun h => ?_⟩
  · decide
  · exact absurd (h _ _ "/b".toList ha hp hq) (by decide)

end IncludeFlattener.Path
