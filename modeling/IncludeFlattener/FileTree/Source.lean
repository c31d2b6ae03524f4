/-
IncludeFlattener.FileTree.Source — a tree of files as a source of lines.

A file is opened by following its path; a directory can be opened too, but
has no lines. The lines are those of the file's bytes, each decoded on its
own, so a file with one line that is not UTF-8 cannot be read.

A loop of links gives a file endlessly many paths. Those that can be read
are finitely many all the same, because they are shorter than the limit
(`exists_all_texts`).
-/
import IncludeFlattener.FileTree.Contents
import IncludeFlattener.Source
namespace IncludeFlattener.FileTree

/-- Why bytes that are not UTF-8 have no lines. -/
def notUtf8 : Text := "stream did not contain valid UTF-8".toList

/-- The lines of the file to which a path leads. -/
def lines (t : FileTree) (p : Path) : Answer :=
  match t.read p with
  | .ok bytes =>
    match Text.Utf8.lines? bytes with
    | some lines => .ok lines
    | none => .error (.unreadable notUtf8)
  | .error .missing => .error .missing
  | .error .isDirectory => .error (.unreadable Trouble.isDirectory.message)
  | .error trouble => .error (.unopened trouble.message)

theorem lines_eq_ok_iff {t : FileTree} {p : Path} {ls : List Text} :
    t.lines p = .ok ls ↔
      ∃ bytes, t.read p = .ok bytes ∧ Text.Utf8.lines? bytes = some ls := by
  unfold lines
  cases t.read p with
  | ok bytes =>
    simp only [Except.ok.injEq, exists_eq_left']
    cases Text.Utf8.lines? bytes <;> simp
  | error trouble => cases trouble <;> simp

/-! ## Finitely many paths can be read -/

/-- Some list holds every character. -/
theorem exists_all_chars : ∃ cs : List Char, ∀ c, c ∈ cs := by
  refine ⟨(List.range 0x110000).map Char.ofNat, fun c => ?_⟩
  refine List.mem_map.2 ⟨c.toNat, List.mem_range.2 ?_, Char.ofNat_toNat c⟩
  have := c.valid
  simp only [UInt32.isValidChar, Nat.isValidChar] at this
  simp only [Char.toNat]
  omega

/-- Some list holds every text up to a length. -/
theorem exists_all_texts : ∀ n : Nat,
    ∃ ts : List Text, ∀ t : Text, t.length ≤ n → t ∈ ts
  | 0 => ⟨[[]], fun t h => by
      simp [List.eq_nil_of_length_eq_zero (Nat.le_zero.1 h)]⟩
  | n + 1 => by
      obtain ⟨cs, hc⟩ := exists_all_chars
      obtain ⟨ts, ht⟩ := exists_all_texts n
      refine ⟨[] :: cs.flatMap fun c => ts.map (c :: ·), fun t h => ?_⟩
      cases t with
      | nil => simp
      | cons c t =>
        refine List.mem_cons_of_mem _ (List.mem_flatMap.2 ⟨c, hc c, ?_⟩)
        exact List.mem_map.2 ⟨t, ht t (by simpa using h), rfl⟩

/-- A text has no more characters than bytes. -/
theorem length_le_byteLength : ∀ t : Text,
    t.length ≤ Text.Utf8.byteLength t
  | [] => by simp
  | c :: t => by
      have ih := length_le_byteLength t
      have hc := c.utf8Size_pos
      simp only [Text.Utf8.byteLength, Text.Utf8.encode, List.flatMap_cons,
        List.length_append, List.length_cons,
        String.length_utf8EncodeChar] at ih ⊢
      omega

theorem length_lt_of_lines {t : FileTree} {p : Path} {ls : List Text}
    (h : t.lines p = .ok ls) : p.length < pathLimit := by
  unfold lines read at h
  cases hp : t.place? p with
  | error trouble =>
    rw [hp] at h
    cases trouble <;> cases h
  | ok place =>
    exact Nat.lt_of_le_of_lt (length_le_byteLength p)
      (byteLength_lt_of_place? hp)

/-- The tree as a source. -/
def source (t : FileTree) : Source where
  read := t.lines
  finite := by
    obtain ⟨ts, hts⟩ := exists_all_texts pathLimit
    exact ⟨ts, fun p _ h => hts p (Nat.le_of_lt (length_lt_of_lines h))⟩

end IncludeFlattener.FileTree
