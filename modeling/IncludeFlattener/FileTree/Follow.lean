/-
IncludeFlattener.FileTree.Follow — where a path leads in a tree.

A path is followed name by name from the working directory, or from the top
if it begins with `/`. Going on from a place takes a directory there, even
for the empty name behind a last `/`; a symbolic link is followed by putting
its own path in front of the names that are left, and `..` goes up from the
place that was reached, not from the name that was written. So `s/../f` is
beside the directory that the link `s` leads to.

Two questions are asked: which place a path leads to (`follow`), and at
which place a file of that path is or would be made (`followNew`). Both end
because only `linkLimit` links are followed.
-/
import IncludeFlattener.FileTree
import IncludeFlattener.Text.Utf8
namespace IncludeFlattener.FileTree

open Text.Utf8 (byteLength)

/-- Why a path leads nowhere, or to nothing of use. -/
inductive Trouble where
  /-- Nothing stands there. -/
  | missing
  /-- A name goes on from what is no directory. -/
  | notDirectory
  /-- There is a directory where a file is needed. -/
  | isDirectory
  /-- A name or the whole path has too many bytes. -/
  | tooLong
  /-- Too many links were followed. -/
  | tooManyLinks
  /-- The path holds the character that ends paths. -/
  | nul
  deriving DecidableEq, Repr

/-- The trouble in words. -/
def Trouble.message : Trouble → Text
  | .missing => "No such file or directory (os error 2)".toList
  | .notDirectory => "Not a directory (os error 20)".toList
  | .isDirectory => "Is a directory (os error 21)".toList
  | .tooLong => "File name too long (os error 36)".toList
  | .tooManyLinks => "Too many levels of symbolic links (os error 40)".toList
  | .nul => "file name contained an unexpected NUL byte".toList

/-- How many links are followed on one path. -/
def linkLimit : Nat := 40

/-- The most bytes of a name. -/
def nameLimit : Nat := 255

/-- A path has fewer bytes than this. -/
def pathLimit : Nat := 4096

/-! ## 1. The names of a path -/

/-- The pieces of a path between `/`, empty ones included. -/
def names : Path → List Name
  | [] => [[]]
  | c :: rest =>
    if c = '/' then [] :: names rest
    else match names rest with
      | [] => [[c]]
      | first :: others => (c :: first) :: others

/-- Where the names of a path start to count. -/
def startFrom (directory : Place) (p : Path) : Place :=
  if p.head? = some '/' then [] else directory

/-- A name that stays at its directory. -/
def isHere (name : Name) : Bool := name = [] || name = ['.']

/-! ## 2. Following -/

/-- The place to which names lead from a place, over at most `links`
symbolic links. -/
def follow (t : FileTree) (links : Nat) (place : Place) :
    List Name → Except Trouble Place
  | [] => .ok place
  | name :: rest =>
    if t.node? place ≠ some .directory then .error .notDirectory
    else if isHere name then t.follow links place rest
    else if name = ['.', '.'] then t.follow links place.tail rest
    else if nameLimit < byteLength name then .error .tooLong
    else match t.node? (name :: place) with
      | none => .error .missing
      | some (.link target) =>
        match links with
        | 0 => .error .tooManyLinks
        | links + 1 =>
          t.follow links (startFrom place target) (names target ++ rest)
      | some _ => t.follow links (name :: place) rest
termination_by names => (links, names.length)

/-- The place at which names have a file or can have a new one. A last name
with `/` behind it stands for a directory. -/
def followNew (t : FileTree) (links : Nat) (place : Place) :
    List Name → Except Trouble Place
  | [] => .error .isDirectory
  | name :: rest =>
    if t.node? place ≠ some .directory then .error .notDirectory
    else if isHere name then t.followNew links place rest
    else if name = ['.', '.'] then t.followNew links place.tail rest
    else if rest ≠ [] ∧ rest.all (· = []) then .error .isDirectory
    else if nameLimit < byteLength name then .error .tooLong
    else match t.node? (name :: place) with
      | none => if rest = [] then .ok (name :: place) else .error .missing
      | some (.link target) =>
        match links with
        | 0 => .error .tooManyLinks
        | links + 1 =>
          t.followNew links (startFrom place target) (names target ++ rest)
      | some .directory => t.followNew links (name :: place) rest
      | some (.file _) =>
        if rest = [] then .ok (name :: place)
        else t.followNew links (name :: place) rest
termination_by names => (links, names.length)

/-! ## 3. One equation for each kind of name -/

section Equations

variable (t : FileTree) (links : Nat) (place : Place) (rest : List Name)
  {name : Name}

@[simp] theorem follow_nil : t.follow links place [] = .ok place := by
  rw [follow]

variable {t place}

theorem follow_here (hd : t.node? place = some .directory)
    (h : isHere name = true) :
    t.follow links place (name :: rest) = t.follow links place rest := by
  rw [follow]
  simp [hd, h]

theorem follow_parent (hd : t.node? place = some .directory) :
    t.follow links place (['.', '.'] :: rest)
      = t.follow links place.tail rest := by
  rw [follow]
  simp [hd, isHere]

theorem follow_link (hd : t.node? place = some .directory)
    (hh : isHere name ≠ true) (hp : name ≠ ['.', '.'])
    (hl : byteLength name ≤ nameLimit) {target : Path}
    (hn : t.node? (name :: place) = some (.link target)) :
    t.follow (links + 1) place (name :: rest)
      = t.follow links (startFrom place target) (names target ++ rest) := by
  rw [follow]
  simp [hd, hh, hp, Nat.not_lt.2 hl, hn]

theorem follow_name (hd : t.node? place = some .directory)
    (hh : isHere name ≠ true) (hp : name ≠ ['.', '.'])
    (hl : byteLength name ≤ nameLimit) {node : Node}
    (hn : t.node? (name :: place) = some node)
    (hk : ∀ target, node ≠ .link target) :
    t.follow links place (name :: rest)
      = t.follow links (name :: place) rest := by
  rw [follow]
  cases node with
  | link target => exact absurd rfl (hk target)
  | _ => simp [hd, hh, hp, Nat.not_lt.2 hl, hn]

end Equations

/-! ## 4. Whole paths -/

/-- What keeps a path from being followed at all: the character that ends
paths, no character, or too many bytes. -/
def refusal? (p : Path) : Option Trouble :=
  if '\x00' ∈ p then some .nul
  else if p = [] then some .missing
  else if pathLimit ≤ byteLength p then some .tooLong
  else none

/-- The place to which a path leads. -/
def place? (t : FileTree) (p : Path) : Except Trouble Place :=
  match refusal? p with
  | some trouble => .error trouble
  | none =>
    t.follow linkLimit (startFrom t.workingDirectory p) (names p)

/-- The place at which a path has a file or can have a new one. -/
def newPlace? (t : FileTree) (p : Path) : Except Trouble Place :=
  match refusal? p with
  | some trouble => .error trouble
  | none =>
    t.followNew linkLimit (startFrom t.workingDirectory p) (names p)

/-- A path that leads anywhere has fewer bytes than the limit. -/
theorem byteLength_lt_of_place? {t : FileTree} {p : Path} {place : Place}
    (h : t.place? p = .ok place) : byteLength p < pathLimit := by
  unfold place? at h
  cases hr : refusal? p with
  | some trouble =>
    rw [hr] at h
    cases h
  | none =>
    unfold refusal? at hr
    split at hr
    · cases hr
    split at hr
    · cases hr
    split at hr
    · cases hr
    · omega

end IncludeFlattener.FileTree
