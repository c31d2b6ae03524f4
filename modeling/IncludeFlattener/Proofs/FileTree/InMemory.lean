/-
IncludeFlattener.Proofs.FileTree.InMemory — files on a disk and files in
memory give the same text.

A tree that holds the files of a store answers the path of each of them as
the store does, but it may hold more. That cannot be told by flattening: a
walk reads no path that gives no lines, unless it fails there, and a walk
over a store can only fail so by missing a file (`Store.givesAll_reads`).
-/
import IncludeFlattener.Proofs.FileTree.Making
import IncludeFlattener.Proofs.Flattening.Agreement
import IncludeFlattener.Proofs.Flattening.Reads
namespace IncludeFlattener

/-! ## 1. A walk over a store -/

namespace Store

/-- What a store gives was put into it. -/
theorem mem_of_get?_foldl {path : Path} {contents : Text} :
    ∀ {files : List (Path × Text)} {s : Store},
    (files.foldl (fun s file => s.insert file.1 file.2) s).get? path
      = some contents →
    s.get? path = some contents ∨ (path, contents) ∈ files
  | [], _, h => .inl h
  | file :: files, s, h => by
      rw [List.foldl_cons] at h
      rcases mem_of_get?_foldl h with h | h
      · rw [get?_insert] at h
        split at h
        · rename_i he
          cases h
          exact .inr (by simp [he])
        · exact .inl h
      · exact .inr (List.mem_cons_of_mem _ h)

theorem mem_of_get?_ofList {files : List (Path × Text)} {path : Path}
    {contents : Text} (h : (ofList files).get? path = some contents) :
    (path, contents) ∈ files := by
  rcases mem_of_get?_foldl h with h | h
  · cases h
  · exact h

/-- The lines that a store gives are those of one of its files. -/
theorem exists_mem_of_read {files : List (Path × Text)} {path : Path}
    {lines : List Text} (h : (ofList files).read path = .ok lines) :
    ∃ contents, (path, contents) ∈ files ∧ lines = contents.splitLines := by
  obtain ⟨contents, hg, rfl⟩ := read_eq_ok_iff.1 h
  exact ⟨contents, mem_of_get?_ofList hg, rfl⟩

/-- A walk over a store that misses no file reads files only. -/
theorem givesAll_reads {s : Store} {keyword : Keyword} {top : Path}
    (hn : ∀ file, flatten s.source keyword top ≠ .error (.missing file)) :
    s.source.reader.GivesAll [] (walk s.source keyword top).reads := by
  have hw := walk?_eq_some_walk s.source keyword top
  have hend := readsEnd_of_walk hw
  generalize hf : (walk s.source keyword top).failure = failure at hend
  cases hend with
  | given hg _ => exact hg
  | @refused path e h =>
    obtain ⟨before, -, -, hr⟩ := h
    obtain ⟨-, rfl⟩ := read_eq_error_iff.1 hr
    exact absurd (flatten_eq_error_iff.2 hf) (hn path)

end Store

theorem Reader.GivesAll.exists_lines {read : Path → Answer}
    {earlier reads : List Path} (h : (steady read).GivesAll earlier reads) :
    ∀ path ∈ reads, ∃ lines, read path = .ok lines := by
  induction reads generalizing earlier with
  | nil => simp
  | cons path reads ih => exact List.forall_mem_cons.2 ⟨h.1, ih h.2⟩

/-! ## 2. The two together -/

/-- **On disk as in memory.** If a tree holds files whose paths can name files
in a working directory, flattening in the tree gives the text, or the
failure, that flattening gives with these files in memory, unless a file is
missing there. -/
theorem flatten_tree_eq_flatten_store {files : List (Path × Text)}
    {tree : FileTree} (hk : ∀ file ∈ files, FileTree.IsKey file.1)
    (ht : tree.Holds files) {keyword : Keyword} {top : Path}
    (hn : ∀ file, flatten (Store.ofList files).source keyword top
      ≠ .error (.missing file)) :
    flatten tree.source keyword top
      = flatten (Store.ofList files).source keyword top := by
  have hlines : ∀ path lines, (Store.ofList files).read path = .ok lines →
      tree.lines path = .ok lines := by
    intro path lines hr
    obtain ⟨contents, hm, rfl⟩ := Store.exists_mem_of_read hr
    exact ht.lines_eq hm (hk _ hm)
  have ha : (Store.ofList files).source.reader.Agrees tree.source.reader []
      (walk (Store.ofList files).source keyword top).reads := by
    refine Reader.agrees_steady_iff.2 fun path hm => ?_
    obtain ⟨lines, hr⟩ := (Store.givesAll_reads hn).exists_lines path hm
    exact (hlines path lines hr).trans hr.symm
  have hw := walk?_eq_of_agrees
    (walk?_eq_some_walk (Store.ofList files).source keyword top) ha
  rw [walk?_eq_some_walk, Option.some.injEq] at hw
  exact congrArg Walk.result hw

/-- Two files that include each other, one of them in a directory. Line ends
are mixed, and there is a character of two bytes. -/
def shelf : List (Path × Text) :=
  [("s/a".toList, "//#include \"../b\"\r\nx".toList),
    (['b'], "é\r\n//#include \"s/a\"\n".toList)]

/-- What is read there. -/
def shelfAnswers : Path → Answer
  | ['s', '/', 'a'] => .ok ["//#include \"../b\"".toList, ['x']]
  | ['b'] => .ok [['é'], "//#include \"s/a\"".toList]
  | _ => .error .missing

/-- The tree in which these files were made. -/
def shelfTree : FileTree := .ofEntries (shelf.map FileTree.entryOf)

theorem isKey_of_mem_shelf : ∀ file ∈ shelf, FileTree.IsKey file.1 := by
  decide

theorem holds_shelfTree : shelfTree.Holds shelf :=
  (FileTree.holdsOnly_foldl_make
    ⟨isKey_of_mem_shelf, by decide, by decide, by decide⟩ _).holds

/-- The text of the two files comes out of the tree. -/
theorem flatten_tree_eq_flatten_store_shelf :
    (∀ file ∈ shelf, FileTree.IsKey file.1) ∧ shelfTree.Holds shelf ∧
    (∀ file, flatten (Store.ofList shelf).source .default "s/a".toList
      ≠ .error (.missing file)) ∧
    flatten shelfTree.source .default "s/a".toList
      = .ok ⟨[⟨['é', '\n'], ['b'], 0⟩,
          ⟨['\n', 'x', '\n'], "s/a".toList, 0⟩],
        ["s/a".toList, ['b']], [⟨['b'], 2, "s/a".toList⟩]⟩ := by
  have hw : (walk? (Store.ofList shelf).source.reader .default
      "s/a".toList).map Walk.result
      = some (.ok ⟨[⟨['é', '\n'], ['b'], 0⟩,
          ⟨['\n', 'x', '\n'], "s/a".toList, 0⟩],
        ["s/a".toList, ['b']], [⟨['b'], 2, "s/a".toList⟩]⟩) :=
    map_walk?_of_answers shelfAnswers ["s/a".toList, ['b']] (by cbv) rfl
  rw [walk?_eq_some_walk, Option.map_some, Option.some.injEq] at hw
  have hn : ∀ file, flatten (Store.ofList shelf).source .default
      "s/a".toList ≠ .error (.missing file) := by
    intro file he
    cases hw.symm.trans he
  exact ⟨isKey_of_mem_shelf, holds_shelfTree, hn,
    (flatten_tree_eq_flatten_store isKey_of_mem_shelf holds_shelfTree hn).trans
      hw⟩

end IncludeFlattener
