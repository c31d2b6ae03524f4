/-
IncludeFlattener.Proofs.FileTree.Names — the names of a path, and the paths
that can name files.

A tree cuts a path into names at `/` alone; the components of a path are cut
at `\` as well. For a folded path there is no difference (`names_of_folded`),
because no `\` is left in it.

`IsKey` collects what a path needs to name a file below the working directory
and in a store alike. Such a path leads down over names that a directory can
have (`IsKey.passage`), and where the names of one key begin with those of
another, it is that key or lies below it (`IsKey.eq_or_below`).
-/
import IncludeFlattener.FileTree.Follow
import IncludeFlattener.Proofs.Path.Normal
import Mathlib.Data.List.Basic
import Mathlib.Tactic.SplitIfs
namespace IncludeFlattener

/-! ## 1. The names of a folded path -/

namespace FileTree

open Text.Utf8 (byteLength)

theorem names_eq_components : ∀ {p : Path}, '\\' ∉ p →
    names p = Path.components p
  | [], _ => rfl
  | c :: p, h => by
      obtain ⟨hc, hp⟩ := not_or.1 (mt List.mem_cons.2 h)
      have ih := names_eq_components hp
      by_cases hs : c = '/'
      · subst hs
        rw [Path.components_separator (by decide), ← ih]
        simp [names]
      · have hsep : Path.isSeparator c = false := by
          simp [Path.isSeparator, hs, Ne.symm hc]
        rw [names, Path.components, ih, if_neg hs, hsep]
        rfl

theorem names_of_folded {p : Path} (h : Path.collapse p = p) :
    names p = Path.components p :=
  names_eq_components (h ▸ Path.backslash_not_mem_collapse p)

theorem names_eq_splitOn : ∀ p : Path, names p = p.splitOn '/'
  | [] => rfl
  | c :: p => by
      have ih := names_eq_splitOn p
      rw [List.splitOn] at ih ⊢
      rw [List.splitOnP_cons_eq_if_modifyHead, ← ih, names]
      by_cases hc : c = '/'
      · simp [hc]
      · rw [if_neg hc, if_neg (by simpa using hc)]
        cases hn : names p with
        | nil => exact absurd (ih.symm.trans hn) (List.splitOnP_ne_nil _ _)
        | cons first others => rfl

theorem intercalate_names (p : Path) : ['/'].intercalate (names p) = p := by
  rw [names_eq_splitOn, List.intercalate_splitOn]

theorem names_intercalate {path : List Name} (hp : path ≠ [])
    (h : ∀ name ∈ path, '/' ∉ name) :
    names (['/'].intercalate path) = path := by
  rw [names_eq_splitOn, List.splitOn_intercalate '/' h hp]

theorem intercalate_append : ∀ {upper : List Name} (name : Name)
    (rest : List Name), upper ≠ [] →
    ['/'].intercalate (upper ++ name :: rest)
      = ['/'].intercalate upper ++ '/' :: ['/'].intercalate (name :: rest)
  | [], _, _, h => absurd rfl h
  | [first], name, rest, _ => by
      rw [List.singleton_append, List.intercalate_cons_cons,
        List.intercalate_singleton, List.append_assoc, List.singleton_append]
  | first :: second :: upper, name, rest, _ => by
      have ih := intercalate_append name rest (List.cons_ne_nil second upper)
      rw [List.cons_append] at ih
      rw [List.cons_append, List.cons_append, List.intercalate_cons_cons,
        List.intercalate_cons_cons, ih]
      simp only [List.append_assoc]

theorem intercalate_prefix {upper path : List Name} (h : upper <+: path) :
    ['/'].intercalate upper <+: ['/'].intercalate path := by
  obtain ⟨rest, rfl⟩ := h
  by_cases hu : upper = []
  · rw [hu, List.intercalate_nil]
    exact List.nil_prefix
  cases rest with
  | nil => simp
  | cons name rest =>
    rw [intercalate_append name rest hu]
    exact List.prefix_append _ _

/-! ## 2. Paths that can name files -/

/-- A name under which a directory can hold something. -/
def IsEntryName (name : Name) : Prop := Path.IsName name ∧ '/' ∉ name

instance (name : Name) : Decidable (IsEntryName name) :=
  inferInstanceAs (Decidable (Path.IsName name ∧ '/' ∉ name))

theorem IsEntryName.not_isHere {name : Name} (h : IsEntryName name) :
    isHere name ≠ true := by
  simpa [isHere, Path.here] using ⟨h.1.1, h.1.2.1⟩

theorem IsEntryName.ne_parent {name : Name} (h : IsEntryName name) :
    name ≠ ['.', '.'] := h.1.2.2

/-- Names that can be gone along from the working directory. -/
def Passage (path : List Name) : Prop :=
  ∀ name ∈ path, IsEntryName name ∧ byteLength name ≤ nameLimit

/-- A path that can name a file in a working directory: it is folded, leads
down from there, and is no longer than paths may be. -/
structure IsKey (key : Path) : Prop where
  ne_nil : key ≠ []
  relative : key.head? ≠ some '/'
  folded : Path.collapse key = key
  inside : (Path.components key).head? ≠ some Path.parent
  noNul : '\x00' ∉ key
  name_le : ∀ name ∈ Path.components key, byteLength name ≤ nameLimit
  length_lt : byteLength key < pathLimit

theorem isKey_iff {key : Path} : IsKey key ↔
    key ≠ [] ∧ key.head? ≠ some '/' ∧ Path.collapse key = key ∧
      (Path.components key).head? ≠ some Path.parent ∧ '\x00' ∉ key ∧
      (∀ name ∈ Path.components key, byteLength name ≤ nameLimit) ∧
      byteLength key < pathLimit :=
  ⟨fun h => ⟨h.ne_nil, h.relative, h.folded, h.inside, h.noNul, h.name_le,
    h.length_lt⟩, fun ⟨h1, h2, h3, h4, h5, h6, h7⟩ =>
      ⟨h1, h2, h3, h4, h5, h6, h7⟩⟩

instance (key : Path) : Decidable (IsKey key) :=
  decidable_of_iff _ isKey_iff.symm

theorem refusal?_eq_none_iff {p : Path} : refusal? p = none ↔
    '\x00' ∉ p ∧ p ≠ [] ∧ byteLength p < pathLimit := by
  unfold refusal?
  split_ifs <;> simp_all

theorem IsKey.refusal?_eq_none {key : Path} (h : IsKey key) :
    refusal? key = none :=
  refusal?_eq_none_iff.2 ⟨h.noNul, h.ne_nil, h.length_lt⟩

/-- A stack without `..` at its bottom holds names only. -/
theorem isName_of_mem_folded {isTop : Bool} {kept : List Path}
    (h : Path.Folded isTop kept)
    (hb : isTop = true ∨ kept.getLast? ≠ some Path.parent) :
    ∀ p ∈ kept, Path.IsName p := by
  induction h with
  | parents n hn =>
    cases n with
    | zero => simp
    | succ n =>
      rcases hb with hb | hb
      · exact absurd (hn hb) (by omega)
      · simp [List.getLast?_replicate] at hb
  | @name p kept hp _ ih =>
    refine List.forall_mem_cons.2 ⟨hp, ?_⟩
    cases kept with
    | nil => simp
    | cons q kept => exact ih (by rwa [List.getLast?_cons_cons] at hb)

/-- The components of a key that does not end in a separator are names. -/
theorem IsKey.isName_of_mem {key : Path} (hk : IsKey key)
    (hl : key.getLast? ≠ some '/') :
    ∀ name ∈ Path.components key, Path.IsName name := by
  have hfold := hk.folded
  have hin := hk.inside
  have hrel := hk.relative
  have hne := hk.ne_nil
  rw [Path.collapse] at hfold
  generalize Path.splitRoot key = cut at hfold
  obtain ⟨root, rest⟩ := cut
  have hstack := Path.folded_fold root.isTop (Path.components rest)
  have hplain := Path.plain_fold root.isTop (Path.plain_components rest)
  dsimp only at hfold
  generalize Path.fold root.isTop (Path.components rest) = ps
    at hfold hstack hplain
  subst hfold
  cases root with
  | none =>
    have hps : ps ≠ [] := by
      rintro rfl
      exact hne rfl
    rw [Path.Root.text, List.nil_append,
      Path.components_ofComponents ps hps hplain] at hin ⊢
    intro name hm
    refine isName_of_mem_folded hstack (.inr ?_) name (List.mem_reverse.2 hm)
    rwa [List.getLast?_reverse]
  | top => exact absurd rfl hrel
  | drive c =>
    by_cases hc : Path.isSeparator c = true
    · simp [Path.Root.text, hc] at hrel
    have hkey : Path.Root.text (.drive c) ++ Path.ofComponents ps
        = [c, ':'] ++ '/' :: Path.ofComponents ps := by
      simp [Path.Root.text, hc]
    rw [hkey] at hl ⊢
    have hps : ps ≠ [] := by
      rintro rfl
      simp [Path.ofComponents] at hl
    rw [Path.components_append (by decide) _ _ (by simp [hc]; decide),
      Path.components_ofComponents ps hps hplain]
    refine List.forall_mem_cons.2 ⟨?_, fun name hm =>
      isName_of_mem_folded hstack (.inl rfl) name (List.mem_reverse.2 hm)⟩
    simp [Path.IsName, Path.here, Path.parent]

/-- The names of a key that stands for a file are those of entries. -/
theorem IsKey.passage {key : Path} (hk : IsKey key)
    (hl : key.getLast? ≠ some '/') : Passage (Path.components key) := by
  intro name hm
  refine ⟨⟨hk.isName_of_mem hl name hm, fun hs => ?_⟩, hk.name_le name hm⟩
  exact absurd (Path.plain_components key name hm '/' hs) (by decide)

/-! ## 3. Keys that begin alike -/

theorem IsKey.intercalate_components {key : Path} (hk : IsKey key) :
    ['/'].intercalate (Path.components key) = key := by
  rw [← names_of_folded hk.folded, intercalate_names]

/-- A key whose names begin those of another one is that key, or the other
one lies below it. -/
theorem IsKey.eq_or_below {key other : Path} (hk : IsKey key)
    (ho : IsKey other) (h : Path.components key <+: Path.components other) :
    key = other ∨ key ++ ['/'] <+: other := by
  obtain ⟨rest, hrest⟩ := h
  rw [← hk.intercalate_components, ← ho.intercalate_components, ← hrest]
  cases rest with
  | nil => exact .inl (by rw [List.append_nil])
  | cons name rest =>
    rw [intercalate_append name rest (Path.components_ne_nil key)]
    exact .inr ⟨['/'].intercalate (name :: rest), by simp⟩

/-! ## 4. Beginnings of a path -/

/-- The path is followed by going along these names from the working
directory. -/
structure Spells (p : Path) (path : List Name) : Prop where
  legal : refusal? p = none
  relative : p.head? ≠ some '/'
  names_eq : names p = path

theorem Spells.newPlace?_eq {p : Path} {path : List Name} (h : Spells p path)
    (t : FileTree) :
    t.newPlace? p = t.followNew linkLimit t.workingDirectory path := by
  rw [newPlace?, h.legal, startFrom, if_neg h.relative, h.names_eq]

/-- The way to a file is spelled by a beginning of the file's path. -/
theorem Spells.of_prefix {p : Path} {path upper : List Name}
    (h : Spells p path) (hu : upper <+: path) (hne : upper ≠ [])
    (hentry : ∀ name ∈ path, IsEntryName name) :
    Spells (['/'].intercalate upper) upper := by
  have hentry' : ∀ name ∈ upper, IsEntryName name :=
    fun name hm => hentry name (hu.subset hm)
  have hnames := names_intercalate hne fun name hm => (hentry' name hm).2
  have hp : ['/'].intercalate upper <+: p := by
    rw [← intercalate_names p, h.names_eq]
    exact intercalate_prefix hu
  obtain ⟨rest, hrest⟩ := hp
  obtain ⟨hnul, -, hlen⟩ := refusal?_eq_none_iff.1 h.legal
  have hn : ['/'].intercalate upper ≠ [] := by
    intro he
    rw [he] at hnames
    exact (hentry' [] (by simp [← hnames, names])).1.1 rfl
  refine ⟨refusal?_eq_none_iff.2 ⟨?_, hn, ?_⟩, ?_, hnames⟩
  · exact fun hm => hnul (hrest ▸ List.mem_append_left _ hm)
  · rw [← hrest, Text.Utf8.byteLength_append] at hlen
    omega
  · intro hh
    refine h.relative ?_
    rw [← hrest, List.head?_append_of_ne_nil _ hn, hh]

theorem IsKey.spells {key : Path} (hk : IsKey key) :
    Spells key (Path.components key) :=
  ⟨hk.refusal?_eq_none, hk.relative, names_of_folded hk.folded⟩

end FileTree

end IncludeFlattener
