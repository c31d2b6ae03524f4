/-
IncludeFlattener.Proofs.Flattening.Bijection — the lines of the text and the
lines of the files match one to one.

Conservation counts places without regard to their order. What is missing
for a bijection is read off three lists: the places behind the text have no
duplicates, so locating is injective; they are the places of the files
without the directives that were passed over, so it is onto; and two places
of one file stand in the order of their lines (`Completes.inOrder`).

A file is left in its middle and resumed behind what it includes. Its lines
stay in order because it is not taken in a second time on the way: its key
is marked, and every path that is marked later is its own key. The file at
the top is named by the path as it was spelled, and that spelling is not
marked either, unless it is the key.
-/
import IncludeFlattener.Proofs.Flattening.LineMap
import Mathlib.Algebra.GroupWithZero.Nat
import Mathlib.Data.Set.Function
import Mathlib.Order.Interval.Set.Defs
namespace IncludeFlattener

/-! ## 1. The order of the lines of a file -/

/-- Of two places in one file, the one with the smaller line comes first. -/
def InOrder (os : List Origin) : Prop :=
  os.Pairwise fun a b : Origin => a.1 = b.1 → a.2 < b.2

theorem inOrder_places (file : Path) (n k : Nat) :
    InOrder (places file n k) := by
  unfold InOrder
  refine (pairwise_places file n k).imp ?_
  intro a b hlt _
  exact hlt

/-- Two rows of places stand in order if each does and no later place comes
before an earlier one. -/
theorem InOrder.append {xs ys : List Origin} (hx : InOrder xs)
    (hy : InOrder ys)
    (h : ∀ a ∈ xs, ∀ b ∈ ys, a.1 = b.1 → a.2 < b.2) : InOrder (xs ++ ys) :=
  List.pairwise_append.2 ⟨hx, hy, h⟩

section Complete

variable {reader : Reader} {keyword : Keyword} {file : Path} {n : Nat}
  {run : Run} {lines : List Text} {visited earlier : List Path} {w : Walk}

/-- What an included file marks is apart from the file around it and from
what is marked behind it. -/
theorem marks_apart {line : Text} {rest inside : List Text} {target : Path}
    {inner after : Walk} (hk : Directive.Includes keyword file line target)
    (hv : target ∉ visited)
    (hi : Scans reader keyword target 1 .empty inside (visited ++ [target])
      (earlier ++ [target]) inner)
    (ha : Scans reader keyword file (n + 1) (.standIn n) rest
      (visited ++ [target] ++ inner.visited)
      (earlier ++ [target] ++ inner.reads) after)
    (hn : visited.Nodup) (hm : Path.collapse file ∈ visited) :
    (visited ++ [target]).Nodup ∧
      (visited ++ [target] ++ inner.visited).Nodup ∧
      file ∉ target :: inner.visited ∧ file ∉ after.visited ∧
      ∀ key ∈ target :: inner.visited, key ∉ after.visited := by
  have h1 := nodup_marked hn hv
  have h2 := hi.nodup_visited h1
  have h3 := ha.nodup_visited h2
  refine ⟨h1, h2, ?_, ha.file_not_mem_visited h2 (by simp [hm]), ?_⟩
  · intro hf
    have hc : Path.collapse file = file := by
      rcases List.mem_cons.1 hf with rfl | hf
      · exact hk.collapse_eq
      · exact hi.collapse_of_mem_visited file hf
    rw [List.append_assoc, List.singleton_append] at h2
    exact (List.nodup_append.1 h2).2.2 _ hm _ hf hc
  · intro key hkey hka
    refine (List.nodup_append.1 h3).2.2 key ?_ key hka rfl
    rw [List.append_assoc, List.singleton_append]
    exact List.mem_append_right _ hkey

/-- The places behind a walk lie in its own file, from the open run on, or
in a file that it marked. -/
theorem Completes.file_or_mem_visited
    (h : Completes reader keyword file n run lines visited earlier w)
    (hlf : reader.LfFree) (hn : AtLine n run lines) {o : Origin}
    (ho : o ∈ Chunk.origins w.chunks) :
    o.1 = file ∧ n - run.lines.length ≤ o.2 ∨ o.1 ∈ w.visited := by
  have hm := (h.perm_origins hlf hn).mem_iff.1 (List.mem_append_left _ ho)
  rw [List.mem_append, List.mem_append, mem_places, mem_places] at hm
  obtain (⟨hf, hn, -⟩ | ⟨hf, hn, -⟩) | hm := hm
  · exact .inl ⟨hf, hn⟩
  · exact .inl ⟨hf, Nat.le_trans (Nat.sub_le _ _) hn⟩
  · have hg := fst_mem_of_mem_allPlaces hm
    rw [← h.scans.reads_eq_visited]
    exact .inr ((reader.map_fst_given_sublist earlier w.reads).subset hg)

theorem Completes.inOrder
    (h : Completes reader keyword file n run lines visited earlier w)
    (hlf : reader.LfFree) (hn : AtLine n run lines) (hv : visited.Nodup)
    (hm : Path.collapse file ∈ visited) :
    InOrder (Chunk.origins w.chunks) := by
  induction h with
  | nil =>
    rw [Walk.closed, Run.origins_close hn.before]
    exact inOrder_places _ _ _
  | ordinary _ _ ih => exact ih hn.push hv hm
  | @skip file n run _ _ _ _ _ after _ _ _ ha ih =>
    have hle := hn.before.length_le
    have hfile := ha.scans.file_not_mem_visited hv hm
    rw [Walk.chunks_append, Chunk.origins_append, Walk.passed,
      Run.origins_close hn.before]
    refine (inOrder_places _ _ _).append (ih hn.pass hv hm) ?_
    intro a hma b hmb he
    obtain ⟨rfl, -, hlt⟩ := mem_places.1 hma
    rcases ha.file_or_mem_visited hlf hn.pass hmb with ⟨-, hge⟩ | hb
    · have : n + 1 ≤ b.2 := hge
      omega
    · exact absurd (he ▸ hb) hfile
  | @inline file n run _ _ visited _ target _ inner after hk _ ht hi hin ha
      ihi iha =>
    have hle := hn.before.length_le
    obtain ⟨h1, h2, hfi, hfa, hia⟩ :=
      marks_apart hk ht hin.scans ha.scans hv hm
    have htarget : Path.collapse target ∈ visited ++ [target] := by
      simp [hk.collapse_eq]
    have hinner : ∀ o ∈ Chunk.origins inner.chunks,
        o.1 ∈ target :: inner.visited := by
      intro o ho
      rcases hin.file_or_mem_visited hlf (.enter hlf hi) ho with ho | ho
      · exact List.mem_cons.2 (.inl ho.1)
      · exact List.mem_cons_of_mem _ ho
    rw [Walk.chunks_append, Walk.chunks_append, Chunk.origins_append,
      Chunk.origins_append, Walk.entered, Run.origins_close hn.before]
    -- Only the open run and what comes behind the included file can share a
    -- file, and the run lies before line `n`.
    refine ((inOrder_places _ _ _).append
      (ihi (.enter hlf hi) h1 htarget) ?_).append
      (iha hn.resume h2 (by simp [hm])) ?_
    · intro a hma b hmb he
      obtain ⟨rfl, -, -⟩ := mem_places.1 hma
      exact absurd (he ▸ hinner b hmb) hfi
    · intro a hma b hmb he
      have hb := ha.file_or_mem_visited hlf hn.resume hmb
      rcases List.mem_append.1 hma with hma | hma
      · obtain ⟨rfl, -, hlt⟩ := mem_places.1 hma
        rcases hb with ⟨-, hge⟩ | hb
        · have : n + 1 - 1 ≤ b.2 := hge
          omega
        · exact absurd (he ▸ hb) hfa
      · have hai := hinner a hma
        rcases hb with ⟨hbf, -⟩ | hb
        · exact absurd (hbf ▸ he ▸ hai) hfi
        · exact absurd (he ▸ hb) (hia _ hai)

/-- Every read of a complete walk gave the lines of a file. -/
theorem Completes.map_fst_given
    (h : Completes reader keyword file n run lines visited earlier w) :
    (reader.given earlier w.reads).map Prod.fst = w.reads := by
  induction h with
  | nil => rfl
  | ordinary _ _ ih => exact ih
  | skip _ _ _ _ ih => simpa using ih
  | inline _ _ _ hr _ _ ihi iha =>
    rw [Walk.reads_append, Walk.reads_append, Walk.entered,
      Reader.given_inline hr, List.map_append, List.map_cons, ihi, iha]
    rfl

end Complete

/-! ## 2. The files of a steady reader -/

/-- How many lines an answer has. -/
def Answer.lineCount : Answer → Nat
  | .ok lines => lines.length
  | .error _ => 0

namespace Reader

theorem mem_given_steady {read : Path → Answer} {path : Path}
    {lines : List Text} {earlier reads : List Path} :
    (path, lines) ∈ (steady read).given earlier reads ↔
      path ∈ reads ∧ read path = .ok lines := by
  induction reads generalizing earlier with
  | nil => simp [given]
  | cons head reads ih =>
    rw [given, steady]
    cases hr : read head with
    | ok inside =>
      rw [List.mem_cons, List.mem_cons, ih, or_and_right, Prod.mk.injEq]
      refine or_congr ⟨?_, ?_⟩ Iff.rfl
      · rintro ⟨rfl, rfl⟩
        exact ⟨rfl, hr⟩
      · rintro ⟨rfl, hp⟩
        exact ⟨rfl, Except.ok.inj (hp.symm.trans hr)⟩
    | error e =>
      rw [List.mem_cons, ih, or_and_right, or_iff_right]
      rintro ⟨rfl, hp⟩
      rw [hr] at hp
      cases hp

theorem length_allPlaces_given_steady (read : Path → Answer)
    (earlier reads : List Path) :
    (allPlaces ((steady read).given earlier reads)).length
      = (reads.map fun path => (read path).lineCount).sum := by
  induction reads generalizing earlier with
  | nil => rfl
  | cons path reads ih =>
    rw [given, List.map_cons, List.sum_cons, ← ih (earlier ++ [path]), steady]
    cases read path with
    | ok lines => simp [Answer.lineCount]
    | error e => simp [Answer.lineCount]

end Reader

/-! ## 3. From the top -/

/-- The path at which the file with this key was read: the file at the top
keeps the spelling of its path. -/
def Path.spelled (top key : Path) : Path :=
  if key = Path.collapse top then top else key

namespace Flattened

/-- The lines of the files in a text. -/
def fileLines (f : Flattened) (read : Path → Answer) (top : Path) :
    Set Origin :=
  {o | ∃ key ∈ f.visited, ∃ lines, o.1 = Path.spelled top key ∧
    read o.1 = .ok lines ∧ 1 ≤ o.2 ∧ o.2 ≤ lines.length}

/-- The directives that were passed over. -/
def passedOver (f : Flattened) : Set Origin :=
  {o | ∃ s ∈ f.skipped, s.file = o.1 ∧ s.line = o.2}

end Flattened

section Top

variable {read : Path → Answer} {keyword : Keyword} {top : Path} {w : Walk}
  {f : Flattened} (hlf : (Reader.steady read).LfFree)
  (hw : walk? (.steady read) keyword top = some w) (hf : w.result = .ok f)

include hw hf

/-- The files are read in the order in which they were marked. -/
theorem reads_eq_map_spelled : w.reads = f.visited.map (Path.spelled top) := by
  obtain ⟨lines, inner, -, hi, rfl, rfl⟩ := exists_completes hw hf
  have hn := List.nodup_cons.1 (hi.scans.nodup_visited (by simp))
  rw [Walk.reads_append, Walk.begun, List.map_cons, Path.spelled, if_pos rfl,
    List.singleton_append, hi.scans.reads_eq_visited]
  congr 1
  refine (List.map_id _).symm.trans (List.map_congr_left ?_)
  intro key hm
  rw [Path.spelled, if_neg]
  · rfl
  · rintro rfl
    exact hn.1 hm

/-- Every file in a text was readable. -/
theorem exists_read_eq_ok : ∀ path ∈ w.reads, ∃ lines, read path = .ok lines
    := by
  obtain ⟨lines, inner, hr, hi, rfl, -⟩ := exists_completes hw hf
  intro path hp
  rcases List.mem_cons.1 hp with rfl | hp
  · exact ⟨lines, hr⟩
  · rw [← hi.map_fst_given] at hp
    obtain ⟨⟨path, inside⟩, hg, rfl⟩ := List.mem_map.1 hp
    exact ⟨inside, (Reader.mem_given_steady.1 hg).2⟩

/-- The lines of the files that were read are the lines of the files in the
text. -/
theorem mem_allPlaces_iff {o : Origin} :
    o ∈ allPlaces ((Reader.steady read).given [] w.reads) ↔
      o ∈ f.fileLines read top := by
  rw [allPlaces, List.mem_flatMap, reads_eq_map_spelled hw hf]
  constructor
  · rintro ⟨⟨path, lines⟩, hg, ho⟩
    obtain ⟨hm, hp⟩ := Reader.mem_given_steady.1 hg
    obtain ⟨key, hk, rfl⟩ := List.mem_map.1 hm
    obtain ⟨h1, h2, h3⟩ := mem_places.1 ho
    exact ⟨key, hk, lines, h1, h1 ▸ hp, h2, Nat.lt_one_add_iff.1 h3⟩
  · rintro ⟨key, hk, lines, h1, hp, h2, h3⟩
    refine ⟨(o.1, lines), Reader.mem_given_steady.2 ⟨?_, hp⟩,
      mem_places.2 ⟨rfl, h2, Nat.lt_one_add_iff.2 h3⟩⟩
    rw [h1]
    exact List.mem_map_of_mem hk

include hlf

/-- The places behind the text are the lines of its files without the
directives that were passed over. -/
theorem mem_origins_iff {o : Origin} :
    o ∈ Chunk.origins f.chunks ↔
      o ∈ f.fileLines read top \ f.passedOver := by
  have hp := (perm_origins_of_result_eq_ok hlf hw hf).mem_iff (a := o)
  have hn := nodup_origins_of_result_eq_ok hlf hw hf
  rw [mem_allPlaces_iff hw hf, List.mem_append] at hp
  rw [Set.mem_sdiff, ← hp]
  have hskip : o ∈ f.skipped.map SkippedInclude.origin ↔ o ∈ f.passedOver := by
    rw [List.mem_map]
    exact exists_congr fun s => and_congr_right fun _ => Prod.ext_iff
  rw [hskip]
  constructor
  · intro ho
    refine ⟨.inl ho, fun hs => ?_⟩
    exact (List.nodup_append.1 hn).2.2 o ho o (hskip.2 hs) rfl
  · rintro ⟨ho | ho, hs⟩
    · exact ho
    · exact absurd ho hs

/-- A line of the text is located at the place in its position. -/
theorem getElem?_origins_eq_some {n : Nat}
    (hn : n ∈ Set.Icc 1 f.text.lfLines.length) :
    n - 1 < (Chunk.origins f.chunks).length ∧
      Chunk.locate f.chunks n = (Chunk.origins f.chunks)[n - 1]? := by
  obtain ⟨h1, h2⟩ := hn
  rw [length_lfLines_text hlf hw hf, ← Chunk.length_origins] at h2
  exact ⟨by omega, Chunk.locate_eq_getElem? _ h1⟩

theorem mapsTo_locate :
    Set.MapsTo (Chunk.locate f.chunks) (Set.Icc 1 f.text.lfLines.length)
      (some '' (f.fileLines read top \ f.passedOver)) := by
  intro n hn
  obtain ⟨hlt, he⟩ := getElem?_origins_eq_some hlf hw hf hn
  rw [List.getElem?_eq_getElem hlt] at he
  exact ⟨_, (mem_origins_iff hlf hw hf).1 (List.getElem_mem hlt), he.symm⟩

theorem injOn_locate :
    Set.InjOn (Chunk.locate f.chunks)
      (Set.Icc 1 f.text.lfLines.length) := by
  intro m hm n hn he
  obtain ⟨hlt, hm'⟩ := getElem?_origins_eq_some hlf hw hf hm
  rw [hm', (getElem?_origins_eq_some hlf hw hf hn).2] at he
  have hd := (List.nodup_append.1 (nodup_origins_of_result_eq_ok hlf hw hf)).1
  have hi := (List.getElem?_inj hlt hd).1 he
  have := hm.1
  have := hn.1
  omega

theorem surjOn_locate :
    Set.SurjOn (Chunk.locate f.chunks) (Set.Icc 1 f.text.lfLines.length)
      (some '' (f.fileLines read top \ f.passedOver)) := by
  rintro _ ⟨o, ho, rfl⟩
  have ho := (mem_origins_iff hlf hw hf).2 ho
  obtain ⟨i, hi, rfl⟩ := List.mem_iff_getElem.1 ho
  have hlen := length_lfLines_text hlf hw hf
  rw [← Chunk.length_origins] at hlen
  refine ⟨i + 1, ⟨Nat.le_add_left 1 i, by omega⟩, ?_⟩
  rw [Chunk.locate_eq_getElem? _ (Nat.succ_pos i)]
  exact List.getElem?_eq_getElem hi

theorem lt_of_locate {m n : Nat} {a b : Origin}
    (hm : Chunk.locate f.chunks m = some a)
    (hn : Chunk.locate f.chunks n = some b) (he : a.1 = b.1)
    (hlt : a.2 < b.2) : m < n := by
  obtain ⟨lines, inner, hr, hi, -, rfl⟩ := exists_completes hw hf
  have ho := hi.inOrder hlf (.enter hlf hr) (by simp) (by simp)
  obtain ⟨hm0, -⟩ := (Chunk.locate_isSome_iff _ m).1 (by rw [hm]; rfl)
  obtain ⟨hn0, -⟩ := (Chunk.locate_isSome_iff _ n).1 (by rw [hn]; rfl)
  rw [Chunk.locate_eq_getElem? _ hm0] at hm
  rw [Chunk.locate_eq_getElem? _ hn0] at hn
  obtain ⟨hmi, rfl⟩ := List.getElem?_eq_some_iff.1 hm
  obtain ⟨hni, rfl⟩ := List.getElem?_eq_some_iff.1 hn
  rcases Nat.lt_trichotomy m n with h | rfl | h
  · exact h
  · exact absurd hlt (Nat.lt_irrefl _)
  · have hgt := List.pairwise_iff_getElem.1 ho _ _ hni hmi (by omega) he.symm
    exact absurd hlt (Nat.lt_asymm hgt)

theorem length_add_length_skipped :
    f.text.lfLines.length + f.skipped.length
      = (f.visited.map fun key =>
          (read (Path.spelled top key)).lineCount).sum := by
  have hp := (perm_origins_of_result_eq_ok hlf hw hf).length_eq
  rw [Reader.length_allPlaces_given_steady, reads_eq_map_spelled hw hf,
    List.map_map, List.length_append, List.length_map, Chunk.length_origins,
    ← length_lfLines_text hlf hw hf] at hp
  exact hp

end Top

/-- **No line is lost, none is there twice.** Locating matches the lines of
the text one to one with the lines of its files, except the directives that
were passed over, and keeps the order of the lines of a file. So the text
has as many lines as its files have together, less those directives. -/
theorem locate_bijOn {read : Path → Answer} {keyword : Keyword} {top : Path}
    {f : Flattened} (hlf : (Reader.steady read).LfFree)
    (h : flatten? (.steady read) keyword top = some (.ok f)) :
    (∀ key ∈ f.visited, ∃ lines, read (Path.spelled top key) = .ok lines) ∧
    Set.BijOn (Chunk.locate f.chunks) (Set.Icc 1 f.text.lfLines.length)
      (some '' (f.fileLines read top \ f.passedOver)) ∧
    (∀ m n a b, Chunk.locate f.chunks m = some a →
      Chunk.locate f.chunks n = some b → a.1 = b.1 → a.2 < b.2 → m < n) ∧
    f.text.lfLines.length + f.skipped.length
      = (f.visited.map fun key =>
          (read (Path.spelled top key)).lineCount).sum := by
  obtain ⟨w, hw, hf⟩ := Option.map_eq_some_iff.1 h
  refine ⟨?_, ⟨mapsTo_locate hlf hw hf, injOn_locate hlf hw hf,
    surjOn_locate hlf hw hf⟩, fun m n a b => lt_of_locate hlf hw hf,
    length_add_length_skipped hlf hw hf⟩
  intro key hk
  refine exists_read_eq_ok hw hf _ ?_
  rw [reads_eq_map_spelled hw hf]
  exact List.mem_map_of_mem hk

/-- The text of the two files, with its account. -/
def twoFilesText : Flattened :=
  ⟨twoFilesWalk.chunks, twoFilesWalk.visited, twoFilesWalk.skipped⟩

/-- Three lines of the two files are in the text; the other two are the
directives that were passed over. -/
theorem locate_bijOn_twoFiles :
    (Reader.steady twoFiles).LfFree ∧
    flatten? (.steady twoFiles) hash ['.', '/', 'a']
      = some (.ok twoFilesText) ∧
    Set.BijOn (Chunk.locate twoFilesText.chunks) (Set.Icc 1 3)
      (some '' (twoFilesText.fileLines twoFiles ['.', '/', 'a']
        \ twoFilesText.passedOver)) ∧
    3 + 2 = (twoFilesText.visited.map fun key =>
      (twoFiles (Path.spelled ['.', '/', 'a'] key)).lineCount).sum := by
  have h : flatten? (.steady twoFiles) hash ['.', '/', 'a']
      = some (.ok twoFilesText) := by
    rw [flatten?, walk?_twoFiles]
    rfl
  obtain ⟨-, hb, -, hs⟩ := locate_bijOn lfFree_twoFiles h
  exact ⟨lfFree_twoFiles, h, hb, hs⟩

end IncludeFlattener
