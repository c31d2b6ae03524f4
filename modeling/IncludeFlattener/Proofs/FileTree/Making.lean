/-
IncludeFlattener.Proofs.FileTree.Making — a tree made of files holds these
files.

Files are made one after another, each after the directories above it. What
has to be shown is that nothing is in the way: at the place of the next file
there is nothing yet, and on the way to it there are directories or nothing.
`HoldsOnly` says so of all places at once, for it lets nodes stand only on
the way to files that were made. This needs that no file lies where another
one needs a directory (`Makeable.noPrefix`). Then making only adds nodes
(`Deepens`), and the files that were made before are led to as they were.
-/
import IncludeFlattener.Proofs.FileTree.Holding
namespace IncludeFlattener

namespace FileTree

open Text.Utf8 (byteLength encode)

/-! ## 1. Where something new can be made -/

section New

variable {t : FileTree} {place : Place} {name : Name} {path : List Name}

theorem LeadsTo.append {node : Node} (h : t.LeadsTo .directory place path)
    (hn : IsEntryName name)
    (hnode : t.node? (name :: (path.reverse ++ place)) = some node) :
    t.LeadsTo node place (path ++ [name]) := by
  induction h with
  | here hd => exact .down hd hn (.here hnode)
  | @down place first rest hd hf h ih =>
    exact .down hd hf (ih (by simpa using hnode))

/-- On the way there are directories. -/
theorem LeadsTo.node?_of_append {node : Node} {rest : List Name}
    (h : t.LeadsTo node place (path ++ name :: rest)) :
    t.node? (path.reverse ++ place) = some .directory := by
  induction path generalizing place with
  | nil =>
    cases h with
    | down hd _ _ => exact hd
  | cons first path ih =>
    cases h with
    | down _ _ h => simpa using ih h

/-- Names that lead over directories are gone along to the last one. -/
theorem LeadsTo.followNew_append (h : t.LeadsTo .directory place path)
    (hn : IsEntryName name)
    (hl : ∀ entry ∈ path, byteLength entry ≤ nameLimit) (links : Nat) :
    t.followNew links place (path ++ [name])
      = t.followNew links (path.reverse ++ place) [name] := by
  induction h with
  | here => rfl
  | @down place first rest hd hf h ih =>
    obtain ⟨hfirst, hrest⟩ := List.forall_mem_cons.1 hl
    have hnode : t.node? (first :: place) = some .directory := by
      cases h with
      | here hn => exact hn
      | down hd _ _ => exact hd
    have hgo : t.followNew links place (first :: (rest ++ [name]))
        = t.followNew links (first :: place) (rest ++ [name]) := by
      rw [followNew]
      simp [hd, hf.not_isHere, hf.ne_parent, Nat.not_lt.2 hfirst, hnode,
        hn.1.1]
    rw [List.cons_append, hgo, ih hrest, List.reverse_cons,
      List.append_assoc, List.singleton_append]

theorem followNew_free (hd : t.node? place = some .directory)
    (hn : IsEntryName name) (hl : byteLength name ≤ nameLimit)
    (hf : t.node? (name :: place) = none) (links : Nat) :
    t.followNew links place [name] = .ok (name :: place) := by
  rw [followNew]
  simp [hd, hn.not_isHere, hn.ne_parent, Nat.not_lt.2 hl, hf]

/-- A file can be written over by its path. -/
theorem LeadsTo.followNew_eq {bytes : List UInt8}
    (h : t.LeadsTo (.file bytes) place path) (hne : path ≠ [])
    (hl : ∀ entry ∈ path, byteLength entry ≤ nameLimit) (links : Nat) :
    t.followNew links place path = .ok (path.reverse ++ place) := by
  induction h with
  | here => exact absurd rfl hne
  | @down place name rest hd hn h ih =>
    obtain ⟨hname, hrest⟩ := List.forall_mem_cons.1 hl
    have hgo := Nat.not_lt.2 hname
    rw [followNew]
    cases h with
    | here hf => simp [hd, hn.not_isHere, hn.ne_parent, hgo, hf]
    | down hd' hn' h' =>
      simp [hd, hn.not_isHere, hn.ne_parent, hgo, hn'.1.1, hd', ih _ hrest]

/-- A name under which nothing stands leads nowhere. -/
theorem follow_free (hd : t.node? place = some .directory)
    (hn : IsEntryName name) (hl : byteLength name ≤ nameLimit)
    (hf : t.node? (name :: place) = none) (links : Nat) :
    t.follow links place [name] = .error .missing := by
  rw [follow]
  simp [hd, hn.not_isHere, hn.ne_parent, Nat.not_lt.2 hl, hf]

theorem followNew_directory (hd : t.node? place = some .directory)
    (hn : IsEntryName name) (hl : byteLength name ≤ nameLimit)
    (hf : t.node? (name :: place) = some .directory) (links : Nat) :
    t.followNew links place [name] = .error .isDirectory := by
  rw [followNew]
  simp [hd, hn.not_isHere, hn.ne_parent, Nat.not_lt.2 hl, hf, followNew]

end New
/-! ## 2. Making the directories above a file -/

/-- The other tree has everything that this one has, and more directories on
this way down from the working directory. -/
structure Deepens (t after : FileTree) (path : List Name) : Prop where
  workingDirectory : after.workingDirectory = t.workingDirectory
  keeps {place : Place} {node : Node} :
    t.node? place = some node → after.node? place = some node
  only {place : Place} {node : Node} : after.node? place = some node →
    t.node? place = some node ∨ node = .directory ∧
      ∃ upper, upper <+: path ∧ place = upper.reverse ++ t.workingDirectory

theorem Deepens.refl (t : FileTree) (path : List Name) : t.Deepens t path :=
  ⟨rfl, id, .inl⟩

theorem Deepens.trans {t u v : FileTree} {path : List Name}
    (h : t.Deepens u path) (h' : u.Deepens v path) : t.Deepens v path := by
  refine ⟨h'.workingDirectory.trans h.workingDirectory,
    fun hn => h'.keeps (h.keeps hn), fun hn => ?_⟩
  rcases h'.only hn with hn | ⟨rfl, hu⟩
  · exact h.only hn
  · exact .inr ⟨rfl, h.workingDirectory ▸ hu⟩

theorem LeadsTo.keep {t after : FileTree} {node : Node} {place : Place}
    {path : List Name} (h : t.LeadsTo node place path)
    (he : ∀ {place node}, t.node? place = some node →
      after.node? place = some node) : after.LeadsTo node place path := by
  induction h with
  | here hn => exact .here (he hn)
  | down hd hn _ ih => exact .down (he hd) hn ih

/-- Nothing is in the way of directories on this way down. -/
def Passable (t : FileTree) (path : List Name) : Prop :=
  ∀ upper, upper <+: path →
    ∀ node, t.node? (upper.reverse ++ t.workingDirectory) = some node →
      node = .directory

theorem Passable.deepen {t after : FileTree} {path : List Name}
    (h : t.Passable path) (hd : t.Deepens after path) :
    after.Passable path := by
  intro upper hu node hn
  rw [hd.workingDirectory] at hn
  rcases hd.only hn with hn | ⟨rfl, -⟩
  · exact h upper hu node hn
  · rfl

/-- A node that is put where nothing stood hides nothing. -/
theorem node?_put_of_free {t : FileTree} {free place : Place}
    {new node : Node} (hp : free ≠ []) (hf : t.node? free = none)
    (hn : t.node? place = some node) :
    (t.put free new).node? place = some node := by
  have hne : place ≠ free := by
    rintro rfl
    rw [hf] at hn
    cases hn
  rw [node?_put _ _ _ _ hp, if_neg hne, hn]

theorem deepens_put {t : FileTree} {upper path : List Name}
    (hu : upper <+: path) (hne : upper ≠ [])
    (hn : t.node? (upper.reverse ++ t.workingDirectory) = none) :
    t.Deepens (t.put (upper.reverse ++ t.workingDirectory) .directory)
      path := by
  have hp : upper.reverse ++ t.workingDirectory ≠ [] := by simp [hne]
  refine ⟨rfl, node?_put_of_free hp hn, fun {place node} ho => ?_⟩
  · rw [node?_put _ _ _ _ hp] at ho
    split at ho
    · rename_i he
      cases ho
      exact .inr ⟨rfl, upper, hu, he⟩
    · exact .inl ho

/-- One more directory on a way that is made up to its last name. -/
theorem makeDirectory_spec {t : FileTree} {p : Path} {upper path : List Name}
    {name : Name} (hs : Spells p (upper ++ [name]))
    (hu : upper ++ [name] <+: path) (hp : Passage path)
    (ht : t.Passable path)
    (hd : t.LeadsTo .directory t.workingDirectory upper) :
    t.Deepens (t.makeDirectory p) path ∧
      (t.makeDirectory p).LeadsTo .directory t.workingDirectory
        (upper ++ [name]) := by
  obtain ⟨hentry, hl⟩ := hp name (hu.subset (by simp))
  have hupper : ∀ entry ∈ upper, byteLength entry ≤ nameLimit :=
    fun entry hm => (hp entry (hu.subset (by simp [hm]))).2
  have hplace : (upper ++ [name]).reverse ++ t.workingDirectory
      = name :: (upper.reverse ++ t.workingDirectory) := by simp
  have hnew := hs.newPlace?_eq t
  rw [hd.followNew_append hentry hupper] at hnew
  cases hn : t.node? (name :: (upper.reverse ++ t.workingDirectory)) with
  | none =>
    rw [followNew_free hd.node?_eq hentry hl hn] at hnew
    have hm : t.makeDirectory p
        = t.put (name :: (upper.reverse ++ t.workingDirectory)) .directory := by
      simp [makeDirectory, hnew, hn]
    rw [← hplace] at hn hm
    have hdeep := deepens_put hu (by simp) hn
    rw [hm]
    refine ⟨hdeep, (hd.keep hdeep.keeps).append hentry ?_⟩
    rw [hplace, node?_put _ _ _ _ (by simp), if_pos rfl]
  | some node =>
    cases ht _ hu node (hplace ▸ hn)
    rw [followNew_directory hd.node?_eq hentry hl hn] at hnew
    have hm : t.makeDirectory p = t := by simp [makeDirectory, hnew]
    rw [hm]
    exact ⟨.refl t path, hd.append hentry hn⟩

/-- The directories down to the `n`-th name on the way are made one after
another. -/
theorem foldl_makeDirectory_spec {t : FileTree} {key : Path}
    {path whole : List Name} (hs : Spells key whole) (hw : path <+: whole)
    (hp : Passage whole) (ht : t.Passable path)
    (hd : t.node? t.workingDirectory = some .directory) :
    ∀ n, n ≤ path.length →
      let after := (List.range n).foldl (fun t i =>
        t.makeDirectory (['/'].intercalate (path.take (i + 1)))) t
      t.Deepens after path ∧
        after.LeadsTo .directory t.workingDirectory (path.take n)
  | 0, _ => by simpa using ⟨Deepens.refl t path, .here hd⟩
  | n + 1, hn => by
      obtain ⟨hdeep, hlead⟩ :=
        foldl_makeDirectory_spec hs hw hp ht hd n (by omega)
      have htake : path.take (n + 1) = path.take n ++ [path[n]] :=
        List.take_succ_eq_append_getElem hn
      have hu := List.take_prefix (n + 1) path
      have hne : path.take (n + 1) ≠ [] := by
        rw [htake]
        exact List.append_ne_nil_of_right_ne_nil _ (List.cons_ne_nil _ _)
      have hstage := hs.of_prefix (hu.trans hw) hne
        fun name hm => (hp name hm).1
      rw [htake] at hstage hu
      rw [← hdeep.workingDirectory] at hlead
      obtain ⟨hdeep', hlead'⟩ := makeDirectory_spec hstage hu
        (fun name hm => hp name (hw.subset hm)) (ht.deepen hdeep) hlead
      rw [hdeep.workingDirectory, ← htake] at hlead'
      rw [← htake] at hdeep'
      rw [List.range_succ, List.foldl_append]
      exact ⟨hdeep.trans hdeep', hlead'⟩

theorem makeDirectories_above_spec {t : FileTree} {key : Path}
    {path : List Name} {name : Name} (hs : Spells key (path ++ [name]))
    (hp : Passage (path ++ [name])) (ht : t.Passable path)
    (hd : t.node? t.workingDirectory = some .directory) :
    t.Deepens (t.makeDirectories (above key)) path ∧
      (t.makeDirectories (above key)).LeadsTo .directory t.workingDirectory
        path := by
  have habove : above key = ['/'].intercalate path := by
    rw [above, hs.names_eq, List.dropLast_concat]
  by_cases hpath : path = []
  · -- The file is made in the working directory itself.
    subst hpath
    have hm : t.makeDirectories (above key) = t := by
      rw [habove]
      rfl
    rw [hm]
    exact ⟨.refl t [], .here hd⟩
  · have hnames : names (above key) = path := by
      rw [habove]
      exact names_intercalate hpath fun entry hm =>
        (hp entry (by simp [hm])).1.2
    have h := foldl_makeDirectory_spec hs (List.prefix_append path [name]) hp ht
      hd path.length (Nat.le_refl _)
    rw [List.take_length] at h
    rw [makeDirectories, stages, List.foldl_map, hnames]
    exact h

/-! ## 3. Making files -/

/-- In its working directory, which is there, the tree holds these files and
nothing else but the directories above them. -/
structure HoldsOnly (t : FileTree) (files : List (Path × Text)) : Prop where
  directory : t.node? t.workingDirectory = some .directory
  holds : t.Holds files
  only {path : List Name} {node : Node} : path ≠ [] →
    t.node? (path.reverse ++ t.workingDirectory) = some node →
    ∃ file ∈ files, path <+: Path.components file.1

/-- Of the two files none lies where the other one needs a directory or
itself. -/
def Apart (file other : Path × Text) : Prop :=
  ¬ Path.components file.1 <+: Path.components other.1 ∧
    ¬ Path.components other.1 <+: Path.components file.1

/-- A file to make. -/
def entryOf (file : Path × Text) : Entry :=
  ⟨file.1, .file (encode file.2)⟩

theorem HoldsOnly.passable {t : FileTree} {files : List (Path × Text)}
    {file : Path × Text} {path : List Name} {name : Name}
    (h : t.HoldsOnly files) (hc : Path.components file.1 = path ++ [name])
    (ha : ∀ other ∈ files, Apart file other) : t.Passable path := by
  intro upper hu node hn
  by_cases hne : upper = []
  · subst hne
    rw [List.reverse_nil, List.nil_append, h.directory] at hn
    exact (Option.some.inj hn).symm
  obtain ⟨other, hm, rest, hrest⟩ := h.only hne hn
  cases rest with
  | nil =>
    -- A file stands where this one needs a directory.
    rw [List.append_nil] at hrest
    refine absurd ?_ (ha other hm).2
    rw [← hrest, hc]
    exact hu.trans (List.prefix_append _ _)
  | cons next rest =>
    have hlead := h.holds other hm
    rw [← hrest] at hlead
    rw [hlead.node?_of_append] at hn
    exact (Option.some.inj hn).symm

/-- Directories on the way to a file leave the place of the file free. -/
theorem HoldsOnly.free {t after : FileTree} {files : List (Path × Text)}
    {file : Path × Text} {path : List Name} {name : Name}
    (h : t.HoldsOnly files) (hc : Path.components file.1 = path ++ [name])
    (ha : ∀ other ∈ files, Apart file other) (hd : t.Deepens after path) :
    after.node? ((path ++ [name]).reverse ++ t.workingDirectory) = none := by
  refine Option.eq_none_iff_forall_ne_some.2 fun node hn => ?_
  rcases hd.only hn with hn | ⟨-, upper, hu, he⟩
  · obtain ⟨other, hm, hpre⟩ := h.only (by simp) hn
    exact (ha other hm).1 (hc ▸ hpre)
  · have he := List.reverse_injective (List.append_cancel_right he)
    have hlen := (he ▸ hu).length_le
    simp only [List.length_append, List.length_singleton] at hlen
    omega

/-- A file is put behind the directories above it. -/
theorem make_eq_put {t u : FileTree} {file : Path × Text} {path : List Name}
    {name : Name} (hs : Spells file.1 (path ++ [name]))
    (hp : Passage (path ++ [name]))
    (hu : t.makeDirectories (above file.1) = u) (hd : t.Deepens u path)
    (hlead : u.LeadsTo .directory t.workingDirectory path)
    (hfree : u.node? ((path ++ [name]).reverse ++ t.workingDirectory)
      = none) :
    t.make (entryOf file)
      = u.put ((path ++ [name]).reverse ++ t.workingDirectory)
        (.file (encode file.2)) := by
  obtain ⟨hentry, hl⟩ := hp name (by simp)
  have hplace : (path ++ [name]).reverse ++ t.workingDirectory
      = name :: (path.reverse ++ t.workingDirectory) := by simp
  have hnew : u.newPlace? file.1
      = .ok ((path ++ [name]).reverse ++ t.workingDirectory) := by
    rw [hs.newPlace?_eq u, hd.workingDirectory, hlead.followNew_append hentry
      fun entry hm => (hp entry (by simp [hm])).2, hplace]
    exact followNew_free hlead.node?_eq hentry hl (hplace ▸ hfree) linkLimit
  simp [FileTree.make, entryOf, hu, write, hnew]

theorem HoldsOnly.put {t u : FileTree} {files : List (Path × Text)}
    {file : Path × Text} {path : List Name} {name : Name}
    (h : t.HoldsOnly files) (hc : Path.components file.1 = path ++ [name])
    (hn : IsEntryName name) (hd : t.Deepens u path)
    (hlead : u.LeadsTo .directory t.workingDirectory path)
    (hfree : u.node? ((path ++ [name]).reverse ++ t.workingDirectory)
      = none) :
    (u.put ((path ++ [name]).reverse ++ t.workingDirectory)
      (.file (encode file.2))).HoldsOnly (file :: files) := by
  have hne : (path ++ [name]).reverse ++ t.workingDirectory ≠ [] := by simp
  generalize hafter : u.put ((path ++ [name]).reverse ++ t.workingDirectory)
    (.file (encode file.2)) = after
  have hwd : after.workingDirectory = t.workingDirectory := by
    rw [← hafter]
    exact hd.workingDirectory
  have hnode := fun place => node?_put u
    ((path ++ [name]).reverse ++ t.workingDirectory) place
    (.file (encode file.2)) hne
  have hkeep : ∀ {place node}, u.node? place = some node →
      after.node? place = some node :=
    fun hn => hafter ▸ node?_put_of_free hne hfree hn
  rw [hafter] at hnode
  refine ⟨hwd ▸ hkeep (hd.keeps h.directory), ?_, ?_⟩
  · intro other hm
    rw [hwd]
    rcases List.mem_cons.1 hm with rfl | hm
    · rw [hc]
      refine (hlead.keep hkeep).append hn ?_
      rw [hnode]
      simp
    · exact ((h.holds other hm).keep hd.keeps).keep hkeep
  · intro other node ho hm
    rw [hwd, hnode] at hm
    split at hm
    · rename_i he
      have he := List.reverse_injective (List.append_cancel_right he)
      exact ⟨file, by simp, hc ▸ he ▸ List.prefix_refl _⟩
    · rcases hd.only hm with hm | ⟨-, upper, hupper, he⟩
      · obtain ⟨found, hf, hpre⟩ := h.only ho hm
        exact ⟨found, List.mem_cons_of_mem _ hf, hpre⟩
      · have he := List.reverse_injective (List.append_cancel_right he)
        exact ⟨file, by simp,
          hc ▸ he ▸ hupper.trans (List.prefix_append _ _)⟩

/-- Making one more file. -/
theorem HoldsOnly.make {t : FileTree} {files : List (Path × Text)}
    {file : Path × Text} {path : List Name} {name : Name}
    (h : t.HoldsOnly files) (hs : Spells file.1 (path ++ [name]))
    (hc : Path.components file.1 = path ++ [name])
    (hp : Passage (path ++ [name])) (ha : ∀ other ∈ files, Apart file other) :
    (t.make (entryOf file)).HoldsOnly (file :: files) := by
  obtain ⟨hdeep, hlead⟩ :=
    makeDirectories_above_spec hs hp (h.passable hc ha) h.directory
  have hfree := h.free hc ha hdeep
  rw [make_eq_put hs hp rfl hdeep hlead hfree]
  exact h.put hc (hp name (by simp)).1 hdeep hlead hfree

/-! ## 4. Making all files -/

/-- There is nothing below a working directory that was just made. -/
theorem length_le_of_node?_onlyDirectory : ∀ {place other : Place}
    {node : Node}, (onlyDirectory place).node? other = some node →
    other.length ≤ place.length
  | [], other, node, h => by
      by_cases ho : other = []
      · simp [ho]
      · simp [onlyDirectory, FileTree.node?, ho] at h
  | name :: above, other, node, h => by
      rw [onlyDirectory, node?_put _ _ _ _ (List.cons_ne_nil _ _)] at h
      split at h
      · rename_i ho
        exact Nat.le_of_eq (congrArg List.length ho)
      · have h : (onlyDirectory above).node? other = some node := h
        exact Nat.le_succ_of_le (length_le_of_node?_onlyDirectory h)

theorem holdsOnly_onlyDirectory (place : Place) :
    (onlyDirectory place).HoldsOnly [] := by
  have hwd : (onlyDirectory place).workingDirectory = place := by
    cases place <;> rfl
  refine ⟨?_, by simp [Holds], fun {path node} hp hn => ?_⟩
  · rw [hwd]
    cases place with
    | nil => rfl
    | cons name above =>
      rw [onlyDirectory, node?_put _ _ _ _ (List.cons_ne_nil _ _), if_pos rfl]
  · rw [hwd] at hn
    have hle := length_le_of_node?_onlyDirectory hn
    have hpos := List.length_pos_of_ne_nil hp
    rw [List.length_append, List.length_reverse] at hle
    omega

/-- Files can be made where each has a path that can name a file, and no two
of them are in each other's way. -/
structure Makeable (files : List (Path × Text)) : Prop where
  isKey : ∀ file ∈ files, IsKey file.1
  noEnd : ∀ file ∈ files, file.1.getLast? ≠ some '/'
  nodup : (files.map Prod.fst).Nodup
  noPrefix : ∀ file ∈ files, ∀ other ∈ files, ¬ file.1 ++ ['/'] <+: other.1

theorem Makeable.pairwise_apart {files : List (Path × Text)}
    (h : Makeable files) : files.Pairwise Apart := by
  have hne : files.Pairwise (·.1 ≠ ·.1) := List.pairwise_map.1 h.nodup
  refine hne.imp_of_mem fun {file other} hf ho hne =>
    ⟨fun hp => ?_, fun hp => ?_⟩
  · rcases (h.isKey _ hf).eq_or_below (h.isKey _ ho) hp with he | hp
    · exact hne he
    · exact h.noPrefix _ hf _ ho hp
  · rcases (h.isKey _ ho).eq_or_below (h.isKey _ hf) hp with he | hp
    · exact hne he.symm
    · exact h.noPrefix _ ho _ hf hp

theorem HoldsOnly.foldl_make : ∀ {todo done : List (Path × Text)}
    {t : FileTree}, t.HoldsOnly done →
    (∀ file ∈ todo, IsKey file.1 ∧ file.1.getLast? ≠ some '/') →
    todo.Pairwise Apart →
    (∀ file ∈ todo, ∀ other ∈ done, Apart file other) →
    (todo.foldl (fun t file => t.make (entryOf file)) t).HoldsOnly
      (todo.reverse ++ done)
  | [], _, _, h, _, _, _ => h
  | file :: todo, done, t, h, hk, ha, hd => by
      obtain ⟨⟨hkey, hend⟩, hk⟩ := List.forall_mem_cons.1 hk
      obtain ⟨hfile, ha⟩ := List.pairwise_cons.1 ha
      obtain ⟨hdone, hd⟩ := List.forall_mem_cons.1 hd
      obtain ⟨path, name, hc⟩ := (List.eq_nil_or_concat' _).resolve_left
        (Path.components_ne_nil file.1)
      have hmade := h.make (hc ▸ hkey.spells) hc (hc ▸ hkey.passage hend) hdone
      rw [List.foldl_cons, List.reverse_cons, List.append_assoc,
        List.singleton_append]
      refine hmade.foldl_make hk ha fun other ho => ?_
      exact List.forall_mem_cons.2 ⟨(hfile other ho).symm, hd other ho⟩

/-- **Making files.** A tree in which files were made one after another, in a
working directory of its own, holds these files and nothing else. -/
theorem holdsOnly_foldl_make {files : List (Path × Text)}
    (h : Makeable files) (place : Place) :
    ((files.map entryOf).foldl FileTree.make (onlyDirectory place)).HoldsOnly
      files := by
  have hall := (holdsOnly_onlyDirectory place).foldl_make
    (fun file hm => ⟨h.isKey file hm, h.noEnd file hm⟩) h.pairwise_apart
    (by simp)
  rw [List.append_nil] at hall
  rw [List.foldl_map]
  refine ⟨hall.directory,
    fun file hm => hall.holds file (List.mem_reverse.2 hm), fun hp hn => ?_⟩
  obtain ⟨file, hm, hpre⟩ := hall.only hp hn
  exact ⟨file, List.mem_reverse.1 hm, hpre⟩

/-! ## 5. Reading and writing in such a tree -/

/-- A file that the tree holds can be written over. -/
theorem Holds.newPlace?_eq {t : FileTree} {files : List (Path × Text)}
    (h : t.Holds files) {file : Path × Text} (hm : file ∈ files)
    (hk : IsKey file.1) :
    t.newPlace? file.1
      = .ok ((Path.components file.1).reverse ++ t.workingDirectory) := by
  rw [hk.spells.newPlace?_eq]
  exact (h file hm).followNew_eq (Path.components_ne_nil _) hk.name_le _

/-- A name that begins the path of no file is missing. -/
theorem HoldsOnly.lines_eq_missing {t : FileTree}
    {files : List (Path × Text)} (h : t.HoldsOnly files) {key : Path}
    (hk : IsKey key) (hl : key.getLast? ≠ some '/') {name : Name}
    (hc : Path.components key = [name])
    (hno : ∀ file ∈ files, ¬ [name] <+: Path.components file.1) :
    t.lines key = .error .missing := by
  obtain ⟨hentry, hlen⟩ := hk.passage hl name (by rw [hc]; simp)
  have hfree : t.node? (name :: t.workingDirectory) = none := by
    refine Option.eq_none_iff_forall_ne_some.2 fun node hn => ?_
    obtain ⟨file, hm, hpre⟩ := h.only (List.cons_ne_nil name []) hn
    exact hno file hm hpre
  have hplace : t.place? key = .error .missing := by
    rw [place?, hk.refusal?_eq_none, names_of_folded hk.folded, startFrom,
      if_neg hk.relative, hc]
    exact follow_free h.directory hentry hlen hfree _
  rw [lines, read, hplace]

end FileTree

end IncludeFlattener
