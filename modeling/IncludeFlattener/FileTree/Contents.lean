/-
IncludeFlattener.FileTree.Contents — reading and writing files, and trees
made entry by entry.

Writing goes through links as reading does, and makes the file where a path
leads nowhere in a directory that is there. A write that fails leaves the
tree as it was; one that succeeds changes one place (`exists_put_of_write`),
and what was written is read back by the same path (`read_of_write`).
-/
import IncludeFlattener.FileTree.Follow
namespace IncludeFlattener.FileTree

/-! ## 1. Reading and writing -/

/-- The bytes of the file to which a path leads. -/
def read (t : FileTree) (p : Path) : Except Trouble (List UInt8) :=
  match t.place? p with
  | .error trouble => .error trouble
  | .ok place =>
    match t.node? place with
    | some (.file bytes) => .ok bytes
    | some .directory => .error .isDirectory
    | _ => .error .missing

/-- The text of the file to which a path leads, if it is one. -/
def readText? (t : FileTree) (p : Path) : Option Text :=
  match t.read p with
  | .ok bytes => Text.Utf8.decode? bytes
  | .error _ => none

/-- Gives the file of a path these bytes. -/
def write (t : FileTree) (p : Path) (bytes : List UInt8) :
    Except Trouble FileTree :=
  match t.newPlace? p with
  | .error trouble => .error trouble
  | .ok place => .ok (t.put place (.file bytes))

/-- A write changes the place of its path and no other. -/
theorem exists_put_of_write {t after : FileTree} {p : Path} {bytes : List UInt8}
    (h : t.write p bytes = .ok after) :
    ∃ place, t.newPlace? p = .ok place ∧
      after = t.put place (.file bytes) := by
  unfold write at h
  cases hp : t.newPlace? p with
  | error trouble =>
    rw [hp] at h
    cases h
  | ok place =>
    rw [hp] at h
    cases h
    exact ⟨place, rfl, rfl⟩

/-! ## 2. What was written is read back -/

/-- Where there can be a new file there is nothing yet, or a file. -/
theorem node?_of_followNew {t : FileTree} {links : Nat} {place found : Place}
    {path : List Name} (h : t.followNew links place path = .ok found) :
    found ≠ [] ∧
      (t.node? found = none ∨ ∃ bytes, t.node? found = some (.file bytes)) := by
  fun_induction followNew t links place path with
  | case1 | case2 | case5 | case6 | case8 | case9 => cases h
  | case3 _ _ _ _ _ _ ih => exact ih h
  | case4 _ _ _ _ _ ih => exact ih h
  | case7 _ _ _ _ _ _ _ hn =>
    cases h
    exact ⟨List.cons_ne_nil _ _, .inl hn⟩
  | case10 _ _ _ _ _ _ _ _ _ _ _ ih => exact ih h
  | case11 _ _ _ _ _ _ _ _ _ _ ih => exact ih h
  | case12 _ _ _ _ _ _ _ _ hn =>
    cases h
    exact ⟨List.cons_ne_nil _ _, .inr ⟨_, hn⟩⟩
  | case13 _ _ _ _ _ _ _ _ _ _ _ _ ih => exact ih h

/-- A file that is put where a new one can be leaves directories and links
alone. -/
theorem node?_put_of_followNew {t : FileTree} {links : Nat}
    {place found : Place} {path : List Name} (bytes : List UInt8)
    (h : t.followNew links place path = .ok found) {other : Place}
    {node : Node} (hn : t.node? other = some node)
    (hk : ∀ b, node ≠ .file b) :
    (t.put found (.file bytes)).node? other = some node := by
  obtain ⟨hne, hold⟩ := node?_of_followNew h
  have ho : other ≠ found := by
    rintro rfl
    rcases hold with hm | ⟨b, hm⟩
    · rw [hm] at hn
      cases hn
    · rw [hm] at hn
      cases hn
      exact hk b rfl
  rw [node?_put t found other _ hne, if_neg ho, hn]

/-- A new file is found by the path that led to its place. -/
theorem follow_put {t : FileTree} {links : Nat} {place found : Place}
    {path : List Name} (bytes : List UInt8)
    (h : t.followNew links place path = .ok found) :
    (t.put found (.file bytes)).follow links place path = .ok found := by
  have hput := fun other => node?_put t found other (.file bytes)
    (node?_of_followNew h).1
  have keep := fun {other : Place} {node : Node} =>
    @node?_put_of_followNew t links place found path bytes h other node
  have hdir : ∀ {other}, ¬ t.node? other ≠ some .directory →
      (t.put found (.file bytes)).node? other = some .directory :=
    fun ho => keep (Decidable.not_not.1 ho) (fun _ => by simp)
  fun_induction followNew t links place path with
  | case1 | case2 | case5 | case6 | case8 | case9 => cases h
  | case3 _ _ _ _ hd hh ih =>
    rw [follow_here _ _ (hdir hd) hh]
    exact ih h
  | case4 _ _ _ hd _ ih =>
    rw [follow_parent _ _ (hdir hd)]
    exact ih h
  | case7 links place name hd hh hp hl hn hr =>
    cases h
    rw [follow_name _ _ (hdir hd) hh hp (Nat.not_lt.1 hl)
      ((hput _).trans (if_pos rfl)) (fun _ => by simp), follow_nil]
  | case10 _ _ _ hd hh hp _ hl target hn links ih =>
    rw [follow_link _ _ (hdir hd) hh hp (Nat.not_lt.1 hl)
      (keep hn (fun _ => by simp))]
    exact ih h
  | case11 links place name rest hd hh hp _ hl hn ih =>
    rw [follow_name _ _ (hdir hd) hh hp (Nat.not_lt.1 hl)
      (keep hn (fun _ => by simp)) (fun _ => by simp)]
    exact ih h
  | case12 links place name hd hh hp hl _ hn hr =>
    cases h
    rw [follow_name _ _ (hdir hd) hh hp (Nat.not_lt.1 hl)
      ((hput _).trans (if_pos rfl)) (fun _ => by simp), follow_nil]
  | case13 links place name rest hd hh hp _ hl b hn hr ih =>
    have hm : ∃ b', (t.put found (.file bytes)).node? (name :: place)
        = some (.file b') := by
      rw [hput]
      split
      · exact ⟨bytes, rfl⟩
      · exact ⟨b, hn⟩
    obtain ⟨b', hm⟩ := hm
    rw [follow_name _ _ (hdir hd) hh hp (Nat.not_lt.1 hl) hm
      (fun _ => by simp)]
    exact ih h

/-- What was written is read back. -/
theorem read_of_write {t after : FileTree} {p : Path} {bytes : List UInt8}
    (h : t.write p bytes = .ok after) : after.read p = .ok bytes := by
  obtain ⟨place, hp, rfl⟩ := exists_put_of_write h
  unfold newPlace? at hp
  cases hr : refusal? p with
  | some trouble =>
    rw [hr] at hp
    cases hp
  | none =>
    rw [hr] at hp
    have hf : (t.put place (.file bytes)).place? p = .ok place := by
      unfold place?
      rw [hr]
      exact follow_put bytes hp
    unfold read
    rw [hf]
    simp [node?_put _ _ _ _ (node?_of_followNew hp).1]

/-! ## 3. Making trees -/

/-- Makes a directory, unless something is there. -/
def makeDirectory (t : FileTree) (p : Path) : FileTree :=
  match t.newPlace? p with
  | .error _ => t
  | .ok place => if (t.node? place).isSome then t else t.put place .directory

/-- The paths that lead through a path, the whole path last. -/
def stages (p : Path) : List Path :=
  (List.range (names p).length).map fun n =>
    ['/'].intercalate ((names p).take (n + 1))

/-- Makes the directories that lead through a path. -/
def makeDirectories (t : FileTree) (p : Path) : FileTree :=
  (stages p).foldl makeDirectory t

/-- Something to make in a tree. -/
structure Entry where
  path : Path
  node : Node

/-- Everything before the last `/` of a path. -/
def above (p : Path) : Path := ['/'].intercalate (names p).dropLast

/-- Makes an entry, and the directories above it. What cannot be made is
left out. -/
def make (t : FileTree) (e : Entry) : FileTree :=
  match e.node with
  | .directory => t.makeDirectories e.path
  | .file bytes =>
    let t := t.makeDirectories (above e.path)
    match t.write e.path bytes with
    | .ok after => after
    | .error _ => t
  | .link target =>
    let t := t.makeDirectories (above e.path)
    match t.newPlace? e.path with
    | .ok place => if (t.node? place).isSome then t else t.put place (.link target)
    | .error _ => t

/-- The tree in which these entries were made one after another, in a
working directory two levels below the top. -/
def ofEntries (entries : List Entry) : FileTree :=
  entries.foldl make (onlyDirectory [".work".toList, "tmp".toList])

end IncludeFlattener.FileTree
