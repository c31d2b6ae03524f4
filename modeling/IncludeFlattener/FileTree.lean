/-
IncludeFlattener.FileTree — directories, files and symbolic links.

A tree says what stands at each place. A place is the list of names that
leads to it from the top, innermost first, so that going down is a `cons`
and going up is a `tail`. The top is always a directory. Of two entries for
one place the earlier one counts: putting a node at a place hides what
stood there (`node?_put`).

How a path leads to a place is in `FileTree.Follow`; reading, writing and
making directories are in `FileTree.Contents`.
-/
import IncludeFlattener.Path
namespace IncludeFlattener

/-- A name in a directory. Here only `/` separates names. -/
abbrev Name := Text

/-- A place in a tree: the names that lead to it, innermost first. -/
abbrev Place := List Name

/-- What can stand at a place. -/
inductive Node where
  | directory
  | file (bytes : List UInt8)
  /-- A symbolic link, with the path that it holds. -/
  | link (target : Path)
  deriving DecidableEq, Repr

/-- A tree of files, with the directory in which paths start. -/
structure FileTree where
  nodes : List (Place × Node)
  workingDirectory : Place

namespace FileTree

/-- The node at a place. -/
def node? (t : FileTree) (place : Place) : Option Node :=
  if place = [] then some .directory else t.nodes.lookup place

/-- Puts a node at a place. -/
def put (t : FileTree) (place : Place) (node : Node) : FileTree :=
  { t with nodes := (place, node) :: t.nodes }

/-- A tree with nothing in it but the working directory. -/
def onlyDirectory : Place → FileTree
  | [] => ⟨[], []⟩
  | name :: above =>
    { onlyDirectory above with workingDirectory := name :: above }.put
      (name :: above) .directory

@[simp] theorem node?_top (t : FileTree) : t.node? [] = some .directory := rfl

theorem node?_put (t : FileTree) (place other : Place) (node : Node)
    (h : place ≠ []) :
    (t.put place node).node? other
      = if other = place then some node else t.node? other := by
  by_cases ho : other = []
  · subst ho
    rw [if_neg (Ne.symm h)]
    rfl
  · by_cases hp : other = place
    · simp [node?, put, h, hp]
    · have hb : (other == place) = false := by simpa using hp
      simp [node?, put, ho, hp, List.lookup_cons, hb]

end FileTree

end IncludeFlattener
