/-
IncludeFlattener.Proofs.FileTree.Decoding — a file of bytes is scanned as
the text that they are, or not at all.

The lines of a file are cut out of its bytes and decoded one by one, and yet
the file is treated as a whole (`lines_eq_of_read`): if the bytes are UTF-8,
it has the lines of the decoded text, as if the text were kept in memory; if
they are not, it has none, not even the lines in front of the first that is
no text.

For a walk this means one of two things. It cannot tell the file from the
text in memory, or it ends where it comes to the file: a refused read is the
last one, and no directive was met in a file without lines
(`ends_of_refused`).
-/
import IncludeFlattener.Proofs.FileTree.InMemory
import IncludeFlattener.Proofs.Flattening.Sites
import IncludeFlattener.Proofs.Text.Cutting
namespace IncludeFlattener

open Text.Utf8 (decode?)

/-! ## 1. A read that is refused -/

section Steady

variable {read : Path → Answer} {keyword : Keyword}

/-- A directive that a walk met stands in a file that gave lines. -/
theorem Scans.exists_lines_of_mem_sites {file : Path} {n : Nat} {run : Run}
    {lines : List Text} {visited earlier : List Path} {w : Walk}
    (h : Scans (.steady read) keyword file n run lines visited earlier w)
    (hf : ∃ all, read file = .ok all) :
    ∀ s ∈ w.sites, ∃ all, read s.file = .ok all := by
  induction h with
  | nil => simp [Walk.sites, Walk.closed]
  | ordinary _ _ ih => exact ih hf
  | malformed => simp [Walk.sites, Walk.failed]
  | selfInclude => simp [Walk.sites, Walk.failed]
  | skip _ _ _ _ ih =>
    rw [Walk.sites_append, Walk.sites_passed, List.singleton_append]
    exact List.forall_mem_cons.2 ⟨hf, ih hf⟩
  | unread =>
    rw [Walk.sites_entered]
    exact List.forall_mem_singleton.2 hf
  | innerFailed _ _ _ hr _ _ ih =>
    rw [Walk.sites_append, Walk.sites_entered, List.singleton_append]
    exact List.forall_mem_cons.2 ⟨hf, ih ⟨_, hr⟩⟩
  | inline _ _ _ hr _ _ _ ihi iha =>
    rw [Walk.sites_append, Walk.sites_append, Walk.sites_entered,
      List.singleton_append, List.cons_append]
    refine List.forall_mem_cons.2 ⟨hf, List.forall_mem_append.2 ?_⟩
    exact ⟨ihi ⟨_, hr⟩, iha hf⟩

theorem exists_lines_of_mem_sites {top : Path} {w : Walk}
    (hw : walk? (.steady read) keyword top = some w) :
    ∀ s ∈ w.sites, ∃ all, read s.file = .ok all := by
  obtain ⟨e, -, rfl⟩ | ⟨lines, inner, hr, hi, rfl⟩ := walk?_eq_some_iff.1 hw
  · rw [Walk.sites_begun]
    exact List.forall_mem_nil _
  · rw [Walk.sites_append, Walk.sites_begun, List.nil_append]
    exact hi.exists_lines_of_mem_sites ⟨lines, hr⟩

/-- Where a read is refused, the walk ends, and it has met no directive of
that file. -/
theorem ends_of_refused {top path : Path} {w : Walk} {e : ReadFailure}
    (hw : walk? (.steady read) keyword top = some w) (hm : path ∈ w.reads)
    (hr : read path = .error e) :
    w.failure = some (.ofRead path e) ∧ w.reads.getLast? = some path ∧
      ∀ s ∈ w.sites, s.file ≠ path := by
  have hno : ∀ lines, read path ≠ .ok lines := by simp [hr]
  have hsites : ∀ s ∈ w.sites, s.file ≠ path := by
    rintro s hs rfl
    obtain ⟨lines, hl⟩ := exists_lines_of_mem_sites hw s hs
    exact hno lines hl
  have hend := readsEnd_of_walk hw
  generalize hf : w.failure = failure at hend
  cases hend with
  | given hg _ =>
    obtain ⟨lines, hl⟩ := hg.exists_lines path hm
    exact absurd hl (hno lines)
  | @refused last reason h =>
    obtain ⟨before, hreads, hg, hlast⟩ := h
    rw [hreads, List.mem_append, List.mem_singleton] at hm
    rcases hm with hm | rfl
    · obtain ⟨lines, hl⟩ := hg.exists_lines path hm
      exact absurd hl (hno lines)
    · cases hr.symm.trans hlast
      exact ⟨rfl, by simp [hreads], hsites⟩

end Steady

/-! ## 2. Bytes and text -/

namespace FileTree

/-- The lines of a file are those of the text that its bytes are. -/
theorem lines_eq_of_read {tree : FileTree} {path : Path}
    {bytes : List UInt8} (hb : tree.read path = .ok bytes) :
    tree.lines path = match decode? bytes with
      | some text => .ok text.splitLines
      | none => .error (.unreadable notUtf8) := by
  simp only [lines, hb, Text.Utf8.lines?_eq]
  cases decode? bytes <;> rfl

end FileTree

/-- **A file is scanned as its text or not at all.** Let a path lead to a
file with these bytes. If they are a text, the file has the lines of the text,
and no walk can tell whether it is read from the tree or from memory. If they
are no text, the read fails for this reason, and so does every walk that
comes to the file: at this read, and with no directive of the file met. -/
theorem decoded_or_refused {tree : FileTree} {path : Path}
    {bytes : List UInt8} (hb : tree.read path = .ok bytes)
    (keyword : Keyword) (top : Path) :
    (∀ text, decode? bytes = some text →
      tree.lines path = .ok text.splitLines ∧
      ∀ (store : Store) (other : Source), store.get? path = some text →
        (∀ p ∈ (walk tree.source keyword top).reads,
          other.read p = if p = path then store.read p else tree.lines p) →
        walk other keyword top = walk tree.source keyword top) ∧
    (decode? bytes = none →
      tree.lines path = .error (.unreadable FileTree.notUtf8) ∧
      (path ∈ (walk tree.source keyword top).reads →
        (walk tree.source keyword top).failure
          = some (.unreadable path FileTree.notUtf8) ∧
        (walk tree.source keyword top).reads.getLast? = some path ∧
        ∀ s ∈ (walk tree.source keyword top).sites, s.file ≠ path)) := by
  have hlines := FileTree.lines_eq_of_read hb
  refine ⟨fun text ht => ?_, fun hnone => ?_⟩
  · rw [ht] at hlines
    refine ⟨hlines, fun store other hs ho => ?_⟩
    have hstore : store.read path = tree.lines path :=
      (Store.read_eq_ok_iff.2 ⟨text, hs, rfl⟩).trans hlines.symm
    refine (walk_eq_of_read_eq fun p hm => (ho p hm).trans ?_).2.2
    split
    · rename_i he
      rw [he]
      exact hstore
    · rfl
  · rw [hnone] at hlines
    exact ⟨hlines, fun hm =>
      ends_of_refused (walk?_eq_some_walk tree.source keyword top) hm hlines⟩

/-- The file `a` includes `b` and `c`. The file `b` is a text, with a
character of two bytes and a CR that ends no line; `c` includes itself, but
its second line is no text. -/
def mixedTree : FileTree where
  nodes := [([['a']], .file (Text.Utf8.encode "#\"b\"\n#\"c\"".toList)),
    ([['b']], .file [0xC3, 0xA9, 0x0D, 0x0A, 0x79, 0x0D]),
    ([['c']], .file [0x23, 0x22, 0x63, 0x22, 0x0A, 0xC3, 0x0A, 0xA9])]
  workingDirectory := []

/-- What is read there. -/
def mixedAnswers : Path → Answer
  | ['a'] => .ok ["#\"b\"".toList, "#\"c\"".toList]
  | ['b'] => .ok [['é'], ['y', '\r']]
  | ['c'] => .error (.unreadable FileTree.notUtf8)
  | _ => .error .missing

/-- The text of `b` in memory. -/
def textOfB : Store := .ofList [(['b'], ['é', '\r', '\n', 'y', '\r'])]

/-- The walk from `b` is the walk through its text. The bytes around the last
LF of `c` would be a character without it; the walk from `a` ends there. -/
theorem decoded_or_refused_mixedTree :
    mixedTree.read ['b'] = .ok [0xC3, 0xA9, 0x0D, 0x0A, 0x79, 0x0D] ∧
    mixedTree.lines ['b'] = .ok [['é'], ['y', '\r']] ∧
    walk textOfB.source hash ['b'] = walk mixedTree.source hash ['b'] ∧
    mixedTree.read ['c']
      = .ok [0x23, 0x22, 0x63, 0x22, 0x0A, 0xC3, 0x0A, 0xA9] ∧
    (walk mixedTree.source hash ['a']).reads = [['a'], ['b'], ['c']] ∧
    (walk mixedTree.source hash ['a']).failure
      = some (.unreadable ['c'] FileTree.notUtf8) := by
  have ha : mixedTree.read ['a']
      = .ok (Text.Utf8.encode "#\"b\"\n#\"c\"".toList) :=
    FileTree.LeadsTo.read_eq (by decide) (.down rfl (by decide) (.here rfl))
  have hb : mixedTree.read ['b']
      = .ok [0xC3, 0xA9, 0x0D, 0x0A, 0x79, 0x0D] :=
    FileTree.LeadsTo.read_eq (by decide) (.down rfl (by decide) (.here rfl))
  have hc : mixedTree.read ['c']
      = .ok [0x23, 0x22, 0x63, 0x22, 0x0A, 0xC3, 0x0A, 0xA9] :=
    FileTree.LeadsTo.read_eq (by decide) (.down rfl (by decide) (.here rfl))
  have hlinesA : mixedTree.source.read ['a'] = mixedAnswers ['a'] :=
    FileTree.lines_eq_ok_iff.2 ⟨_, ha, by decide⟩
  have hlinesB : mixedTree.source.read ['b'] = mixedAnswers ['b'] :=
    FileTree.lines_eq_ok_iff.2 ⟨_, hb, by decide⟩
  have hlinesC : mixedTree.source.read ['c'] = mixedAnswers ['c'] := by
    have hnone : decode? [0x23, 0x22, 0x63, 0x22, 0x0A, 0xC3, 0x0A, 0xA9]
        = none := by decide
    exact (FileTree.lines_eq_of_read hc).trans (by rw [hnone]; rfl)
  have hfromA : (walk? mixedTree.source.reader hash ['a']).map Walk.reads
      = some [['a'], ['b'], ['c']] :=
    map_walk?_of_answers mixedAnswers [['a'], ['b'], ['c']] (by cbv)
      (by simp only [List.map_cons, List.map_nil, hlinesA, hlinesB, hlinesC])
  have hfromB : (walk? mixedTree.source.reader hash ['b']).map Walk.reads
      = some [['b']] :=
    map_walk?_of_answers mixedAnswers [['b']] (by cbv)
      (by simp only [List.map_cons, List.map_nil, hlinesB])
  rw [walk?_eq_some_walk, Option.map_some, Option.some.injEq] at hfromA hfromB
  obtain ⟨hlines, hsame⟩ := (decoded_or_refused hb hash ['b']).1
    ['é', '\r', '\n', 'y', '\r'] (by decide)
  have hsame := hsame textOfB textOfB.source (by decide) fun p hm => by
    rw [hfromB, List.mem_singleton] at hm
    rw [if_pos hm]
    rfl
  obtain ⟨-, hends⟩ := (decoded_or_refused hc hash ['a']).2 (by decide)
  exact ⟨hb, hlines, hsame, hc, hfromA, (hends (by simp [hfromA])).1⟩

end IncludeFlattener
