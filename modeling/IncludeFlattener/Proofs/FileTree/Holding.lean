/-
IncludeFlattener.Proofs.FileTree.Holding — files under folded paths in a
tree.

A store finds a file by the spelling of its path; a tree is walked down,
name by name. `Holds` says that the components of a path are such a walk: they
lead over directories to the file (`LeadsTo`). Then the path is read as that
file, and the lines of its bytes are the lines of its text
(`Holds.lines_eq`).
-/
import IncludeFlattener.FileTree.Source
import IncludeFlattener.Proofs.FileTree.Names
import IncludeFlattener.Proofs.Text.Lines
namespace IncludeFlattener

namespace FileTree

open Text.Utf8 (byteLength encode)

/-! ## 1. Files that a tree holds -/

/-- From a place, these names lead over directories to a node. -/
inductive LeadsTo (t : FileTree) (node : Node) :
    Place → List Name → Prop where
  | here {place : Place} (hn : t.node? place = some node) :
      LeadsTo t node place []
  | down {place : Place} {name : Name} {rest : List Name}
      (hd : t.node? place = some .directory) (hn : IsEntryName name)
      (h : LeadsTo t node (name :: place) rest) :
      LeadsTo t node place (name :: rest)

/-- In its working directory the tree holds these files, under these paths,
as files of its own. It may hold more. -/
def Holds (t : FileTree) (files : List (Path × Text)) : Prop :=
  ∀ file ∈ files, t.LeadsTo (.file (encode file.2)) t.workingDirectory
    (Path.components file.1)

/-! ## 2. Following and reading -/

section Following

variable {t : FileTree} {node : Node} {place : Place} {path : List Name}

/-- Where names begin to lead to a node that is no link, there is none. -/
theorem LeadsTo.exists_node (h : t.LeadsTo node place path)
    (hk : ∀ target, node ≠ .link target) :
    ∃ first, t.node? place = some first ∧ ∀ target, first ≠ .link target := by
  cases h with
  | here hn => exact ⟨node, hn, hk⟩
  | down hd _ _ => exact ⟨.directory, hd, fun _ => by simp⟩

theorem LeadsTo.follow_eq (h : t.LeadsTo node place path)
    (hk : ∀ target, node ≠ .link target)
    (hl : ∀ name ∈ path, byteLength name ≤ nameLimit) (links : Nat) :
    t.follow links place path = .ok (path.reverse ++ place) := by
  induction h with
  | here => exact follow_nil t links _
  | @down place name rest hd hn h ih =>
    obtain ⟨hname, hrest⟩ := List.forall_mem_cons.1 hl
    obtain ⟨first, hfirst, hlink⟩ := h.exists_node hk
    rw [follow_name links rest hd hn.not_isHere hn.ne_parent hname hfirst
      hlink, ih hrest]
    simp

theorem LeadsTo.node?_eq (h : t.LeadsTo node place path) :
    t.node? (path.reverse ++ place) = some node := by
  induction h with
  | here hn => exact hn
  | down _ _ _ ih => simpa using ih

/-- A key whose components lead to a file is read as that file. -/
theorem LeadsTo.read_eq {key : Path} {bytes : List UInt8} (hk : IsKey key)
    (h : t.LeadsTo (.file bytes) t.workingDirectory (Path.components key)) :
    t.read key = .ok bytes := by
  have hplace : t.place? key
      = .ok ((Path.components key).reverse ++ t.workingDirectory) := by
    rw [place?, hk.refusal?_eq_none, names_of_folded hk.folded, startFrom,
      if_neg hk.relative]
    exact h.follow_eq (fun _ => by simp) hk.name_le linkLimit
  rw [read, hplace]
  simp only [h.node?_eq]

/-- The lines of a file that the tree holds are those of its text. -/
theorem Holds.lines_eq {files : List (Path × Text)} (h : t.Holds files)
    {file : Path × Text} (hm : file ∈ files) (hk : IsKey file.1) :
    t.lines file.1 = .ok file.2.splitLines := by
  rw [lines, (h file hm).read_eq hk]
  simp only [Text.Utf8.lines?_encode]

end Following

end FileTree

end IncludeFlattener
