/-
IncludeFlattener.Proofs.Flattening.Sites — the directives of files, and what
a walk does with them.

A directive stands at a place and names a target (`Site`). The directives of
a file are read off its lines (`sitesOf`). The events of a walk tell which
directives it met: each one was passed over or brought its target into the
text (`Walk.perm_sites`).

Both are counted against each other, just as lines are:
`Completes.perm_sites` says that a complete walk meets the directives of the
files that it reads, each once. The order differs, because a file is left at
a directive for the file that it names. Nothing is asked of the lines here;
one may hold an LF.
-/
import IncludeFlattener.Proofs.Flattening.LineMap
import Mathlib.Algebra.GroupWithZero.Nat
namespace IncludeFlattener

open Directive (classify Includes)

/-! ## 1. Directives in files -/

/-- A directive, with the place where it stands. -/
structure Site where
  file : Path
  line : Nat
  target : Path
  deriving DecidableEq, Repr

/-- The place of the directive. -/
def Site.origin (s : Site) : Origin := (s.file, s.line)

/-- The directive as one that was passed over. -/
def Site.skipped (s : Site) : SkippedInclude := ⟨s.file, s.line, s.target⟩

/-- The directive in line `n` of a file, if this line is one. -/
def siteOf? (keyword : Keyword) (file : Path) (n : Nat) (line : Text) :
    Option Site :=
  match classify keyword line with
  | .directive quoted => some ⟨file, n, Path.join file quoted⟩
  | _ => none

/-- The directives of a file, of which `n` is the number of the first
line. -/
def sitesOf (keyword : Keyword) (file : Path) (n : Nat) (lines : List Text) :
    List Site :=
  (lines.zipIdx n).filterMap fun x => siteOf? keyword file x.2 x.1

/-- The directives of these files. -/
def allSites (keyword : Keyword) (files : List (Path × List Text)) :
    List Site :=
  files.flatMap fun file => sitesOf keyword file.1 1 file.2

/-- How many lines of an answer start with the keyword. -/
def Answer.directiveCount (keyword : Keyword) : Answer → Nat
  | .ok lines => lines.countP (keyword.text <+: ·)
  | .error _ => 0

section Files

variable {keyword : Keyword} {file target : Path} {n : Nat} {line : Text}
  {rest lines : List Text}

theorem siteOf?_of_includes (hk : Includes keyword file line target) :
    siteOf? keyword file n line = some ⟨file, n, target⟩ := by
  obtain ⟨quoted, hk, rfl⟩ := hk
  rw [siteOf?, hk]

theorem siteOf?_eq_some_iff {s : Site} :
    siteOf? keyword file n line = some s ↔
      s.file = file ∧ s.line = n ∧ Includes keyword file line s.target := by
  constructor
  · intro h
    unfold siteOf? at h
    split at h
    · rename_i quoted hk
      cases h
      exact ⟨rfl, rfl, quoted, hk, rfl⟩
    · cases h
  · rintro ⟨rfl, rfl, hk⟩
    exact siteOf?_of_includes hk

/-- A line without a directive adds nothing. -/
theorem sitesOf_cons_none (h : siteOf? keyword file n line = none) :
    sitesOf keyword file n (line :: rest)
      = sitesOf keyword file (n + 1) rest := by
  rw [sitesOf, List.zipIdx_cons]
  exact List.filterMap_cons_none h

theorem sitesOf_cons_some {s : Site}
    (h : siteOf? keyword file n line = some s) :
    sitesOf keyword file n (line :: rest)
      = s :: sitesOf keyword file (n + 1) rest := by
  rw [sitesOf, List.zipIdx_cons]
  exact List.filterMap_cons_some h

theorem siteOf?_of_ordinary (hk : classify keyword line = .ordinary) :
    siteOf? keyword file n line = none := by
  rw [siteOf?, hk]

theorem mem_sitesOf {s : Site} :
    s ∈ sitesOf keyword file n lines ↔ s.file = file ∧ n ≤ s.line ∧
      ∃ line, lines[s.line - n]? = some line ∧
        Includes keyword file line s.target := by
  rw [sitesOf, List.mem_filterMap]
  constructor
  · rintro ⟨⟨line, l⟩, hm, hs⟩
    obtain ⟨hf, rfl, hk⟩ := siteOf?_eq_some_iff.1 hs
    obtain ⟨hle, hl⟩ := List.mk_mem_zipIdx_iff_le_and_getElem?_sub.1 hm
    exact ⟨hf, hle, line, hl, hk⟩
  · rintro ⟨hf, hle, line, hl, hk⟩
    exact ⟨(line, s.line),
      List.mk_mem_zipIdx_iff_le_and_getElem?_sub.2 ⟨hle, hl⟩,
      siteOf?_eq_some_iff.2 ⟨hf, rfl, hk⟩⟩

theorem map_origin_sitesOf_sublist :
    ((sitesOf keyword file n lines).map Site.origin).Sublist
      (places file n lines.length) := by
  induction lines generalizing n with
  | nil => simp [sitesOf]
  | cons line rest ih =>
    rw [List.length_cons, places_succ]
    cases hs : siteOf? keyword file n line with
    | none =>
      rw [sitesOf_cons_none hs]
      exact ih.cons _
    | some s =>
      obtain ⟨hf, hl, -⟩ := siteOf?_eq_some_iff.1 hs
      rw [sitesOf_cons_some hs, List.map_cons, Site.origin, hf, hl]
      exact ih.cons_cons _

theorem length_sitesOf
    (hm : ∀ line ∈ lines, classify keyword line ≠ .malformed) :
    (sitesOf keyword file n lines).length
      = lines.countP (keyword.text <+: ·) := by
  induction lines generalizing n with
  | nil => rfl
  | cons line rest ih =>
    have ih := @ih (n + 1) fun l hl => hm l (List.mem_cons_of_mem _ hl)
    cases hk : classify keyword line with
    | ordinary =>
      have hp := Directive.classify_eq_ordinary_iff.1 hk
      rw [sitesOf_cons_none (siteOf?_of_ordinary hk), ih,
        List.countP_cons_of_neg (by simpa)]
    | malformed => exact absurd hk (hm line List.mem_cons_self)
    | directive quoted =>
      have hi : Includes keyword file line _ := ⟨quoted, hk, rfl⟩
      rw [sitesOf_cons_some (siteOf?_of_includes hi), List.length_cons, ih,
        List.countP_cons_of_pos (by simpa using hi.keyword_isPrefix)]

@[simp] theorem allSites_nil : allSites keyword [] = [] := rfl

@[simp] theorem allSites_cons (path : Path) (lines : List Text)
    (files : List (Path × List Text)) :
    allSites keyword ((path, lines) :: files)
      = sitesOf keyword path 1 lines ++ allSites keyword files := rfl

@[simp] theorem allSites_append (xs ys : List (Path × List Text)) :
    allSites keyword (xs ++ ys)
      = allSites keyword xs ++ allSites keyword ys := by
  simp [allSites]

theorem map_origin_allSites_sublist : ∀ files : List (Path × List Text),
    ((allSites keyword files).map Site.origin).Sublist (allPlaces files)
  | [] => .slnil
  | (path, lines) :: files => by
      rw [allSites_cons, List.map_append, allPlaces_cons]
      exact map_origin_sitesOf_sublist.append
        (map_origin_allSites_sublist files)

/-- No two directives of files with different paths stand at one place. -/
theorem nodup_origins_allSites {files : List (Path × List Text)}
    (h : (files.map Prod.fst).Nodup) :
    ((allSites keyword files).map Site.origin).Nodup :=
  (map_origin_allSites_sublist files).nodup (nodup_allPlaces h)

/-- A file that was read to its end has as many directives as lines that
start with the keyword. -/
theorem length_allSites_given_steady {read : Path → Answer}
    {earlier reads : List Path}
    (hm : ∀ x ∈ (Reader.steady read).given earlier reads, ∀ line ∈ x.2,
      classify keyword line ≠ .malformed) :
    (allSites keyword ((Reader.steady read).given earlier reads)).length
      = (reads.map fun path => (read path).directiveCount keyword).sum := by
  induction reads generalizing earlier with
  | nil => rfl
  | cons path reads ih =>
    rw [Reader.given, Reader.steady] at hm ⊢
    rw [List.map_cons, List.sum_cons]
    cases hr : read path with
    | ok lines =>
      rw [hr] at hm
      obtain ⟨hl, hm⟩ := List.forall_mem_cons.1 hm
      rw [allSites_cons, List.length_append, length_sitesOf hl, ih hm]
      rfl
    | error e =>
      rw [hr] at hm
      rw [ih hm]
      exact (Nat.zero_add _).symm

end Files

/-! ## 2. Directives in events -/

namespace Event

/-- The directive of which the event tells. -/
def site? : Event → Option Site
  | .reading _ => none
  | .inlining target file n => some ⟨file, n, target⟩
  | .skipping target file n => some ⟨file, n, target⟩

/-- The directive that brought its target into the text. -/
def brought? : Event → Option Site
  | .inlining target file n => some ⟨file, n, target⟩
  | _ => none

/-- The directive that was passed over. -/
def skipped? : Event → Option Site
  | .skipping target file n => some ⟨file, n, target⟩
  | _ => none

/-- A directive in a list of events brought its target in or was passed
over. -/
theorem perm_sites : ∀ es : List Event,
    (es.filterMap site?).Perm (es.filterMap brought? ++ es.filterMap skipped?)
  | [] => .nil
  | .reading _ :: es => perm_sites es
  | .inlining _ _ _ :: es => (perm_sites es).cons _
  | .skipping _ _ _ :: es =>
      ((perm_sites es).cons _).trans List.perm_middle.symm

/-- What tells the directives that were passed over from the others finds
both among all directives, in their order. -/
theorem filter_sites {p : Site → Prop} [DecidablePred p] :
    ∀ es : List Event, (∀ s ∈ es.filterMap skipped?, p s) →
      (∀ s ∈ es.filterMap brought?, ¬ p s) →
      (es.filterMap site?).filter (p ·) = es.filterMap skipped? ∧
        (es.filterMap site?).filter (¬ p ·) = es.filterMap brought?
  | [], _, _ => ⟨rfl, rfl⟩
  | .reading _ :: es, hs, hb => filter_sites es hs hb
  | .inlining target file n :: es, hs, hb => by
      obtain ⟨hp, hb⟩ := List.forall_mem_cons.1 hb
      obtain ⟨h1, h2⟩ := filter_sites es hs hb
      rw [List.filterMap_cons_some (f := site?) rfl,
        List.filter_cons_of_neg (by simpa), h1,
        List.filter_cons_of_pos (by simpa), h2]
      exact ⟨rfl, rfl⟩
  | .skipping target file n :: es, hs, hb => by
      obtain ⟨hp, hs⟩ := List.forall_mem_cons.1 hs
      obtain ⟨h1, h2⟩ := filter_sites es hs hb
      rw [List.filterMap_cons_some (f := site?) rfl,
        List.filter_cons_of_pos (by simpa), h1,
        List.filter_cons_of_neg (by simpa), h2]
      exact ⟨rfl, rfl⟩

theorem filterMap_site?_openings (path : Path) (answer : Answer) :
    (openings path answer).filterMap site? = [] := by
  unfold openings
  split <;> rfl

end Event

namespace Walk

/-- The directives that a walk met, in the order in which it met them. -/
def sites (w : Walk) : List Site := w.events.filterMap Event.site?

/-- The directives that brought a file into the text. -/
def brought (w : Walk) : List Site := w.events.filterMap Event.brought?

/-- The directives that were passed over. -/
def skippedSites (w : Walk) : List Site :=
  w.events.filterMap Event.skipped?

variable {a b : Walk}

theorem sites_append : (a ++ b).sites = a.sites ++ b.sites := by
  simp [sites]

theorem brought_append : (a ++ b).brought = a.brought ++ b.brought := by
  simp [brought]

theorem skippedSites_append :
    (a ++ b).skippedSites = a.skippedSites ++ b.skippedSites := by
  simp [skippedSites]

theorem perm_sites (w : Walk) :
    w.sites.Perm (w.brought ++ w.skippedSites) :=
  Event.perm_sites w.events

theorem brought_subset (w : Walk) : w.brought ⊆ w.sites := fun _ h =>
  w.perm_sites.mem_iff.2 (List.mem_append_left _ h)

theorem skippedSites_subset (w : Walk) : w.skippedSites ⊆ w.sites :=
  fun _ h => w.perm_sites.mem_iff.2 (List.mem_append_right _ h)

theorem sites_begun (path : Path) (answer : Answer) :
    (begun path answer).sites = [] :=
  Event.filterMap_site?_openings path answer

section Pieces

variable (run : Run) (file : Path) (n : Nat) (target : Path)
  (inside : List Text)

theorem sites_passed :
    (passed run file n target).sites = [⟨file, n, target⟩] := rfl
theorem brought_passed : (passed run file n target).brought = [] := rfl
theorem skippedSites_passed :
    (passed run file n target).skippedSites = [⟨file, n, target⟩] := rfl
theorem sites_entered (answer : Answer) :
    (entered run file n target answer).sites = [⟨file, n, target⟩] :=
  congrArg (_ :: ·) (Event.filterMap_site?_openings target answer)
theorem brought_entered : (entered run file n target (.ok inside)).brought
    = [⟨file, n, target⟩] := rfl
theorem skippedSites_entered :
    (entered run file n target (.ok inside)).skippedSites = [] := rfl

end Pieces

end Walk

section Complete

variable {reader : Reader} {keyword : Keyword} {file : Path} {n : Nat}
  {run : Run} {lines : List Text} {visited earlier : List Path} {w : Walk}

theorem Completes.skipped_eq
    (h : Completes reader keyword file n run lines visited earlier w) :
    w.skipped = w.skippedSites.map Site.skipped := by
  induction h with
  | nil => rfl
  | ordinary _ _ ih => exact ih
  | skip _ _ _ _ ih =>
    rw [Walk.skipped_append, Walk.skippedSites_append,
      Walk.skippedSites_passed, List.map_append, ← ih]
    rfl
  | inline _ _ _ _ _ _ ihi iha =>
    rw [Walk.skipped_append, Walk.skipped_append, Walk.skippedSites_append,
      Walk.skippedSites_append, Walk.skippedSites_entered, List.map_append,
      List.map_append, ← ihi, ← iha]
    rfl

/-- A file is marked for the directive that brings it in. -/
theorem Completes.visited_eq
    (h : Completes reader keyword file n run lines visited earlier w) :
    w.visited = w.brought.map Site.target := by
  induction h with
  | nil => rfl
  | ordinary _ _ ih => exact ih
  | skip _ _ _ _ ih =>
    rw [Walk.visited_append, Walk.brought_append, Walk.brought_passed]
    exact ih
  | inline _ _ _ _ _ _ ihi iha =>
    rw [Walk.visited_append, Walk.visited_append, Walk.brought_append,
      Walk.brought_append, Walk.brought_entered, List.map_append,
      List.map_append, ihi, iha]
    rfl

theorem Completes.target_mem_visited
    (h : Completes reader keyword file n run lines visited earlier w) :
    ∀ s ∈ w.skipped, s.target ∈ visited ++ w.visited := by
  induction h with
  | nil => simp
  | ordinary _ _ ih => exact ih
  | skip _ _ hv _ ih => simpa [hv] using ih
  | inline _ _ _ _ _ _ ihi iha =>
    intro s hs
    rw [Walk.skipped_append, Walk.skipped_append, List.mem_append,
      List.mem_append] at hs
    rw [Walk.visited_append, Walk.visited_append, Walk.entered,
      ← List.append_assoc, ← List.append_assoc]
    obtain (hs | hs) | hs := hs
    · cases hs
    · exact List.mem_append_left _ (ihi s hs)
    · exact iha s hs

/-- No line of a file that was read to its end lacks a path. -/
theorem Completes.not_malformed
    (h : Completes reader keyword file n run lines visited earlier w) :
    ∀ x ∈ (file, lines) :: reader.given earlier w.reads, ∀ line ∈ x.2,
      classify keyword line ≠ .malformed := by
  induction h with
  | nil => simp [Reader.given]
  | ordinary hk _ ih =>
    rw [List.forall_mem_cons] at ih ⊢
    refine ⟨List.forall_mem_cons.2 ⟨?_, ih.1⟩, ih.2⟩
    rw [hk]
    simp
  | skip hk _ _ _ ih =>
    obtain ⟨quoted, hk, -⟩ := hk
    rw [List.forall_mem_cons] at ih ⊢
    refine ⟨List.forall_mem_cons.2 ⟨?_, ih.1⟩, by simpa using ih.2⟩
    rw [hk]
    simp
  | inline hk _ _ hr _ _ ihi iha =>
    obtain ⟨quoted, hk, -⟩ := hk
    rw [List.forall_mem_cons] at iha
    rw [Walk.reads_append, Walk.reads_append, Walk.entered,
      Reader.given_inline hr, List.forall_mem_cons, List.forall_mem_append]
    refine ⟨List.forall_mem_cons.2 ⟨?_, iha.1⟩, ihi, iha.2⟩
    rw [hk]
    simp

/-- The directives that a walk meets are those of the rest of the file and of
the files that were read. -/
theorem Completes.perm_sites
    (h : Completes reader keyword file n run lines visited earlier w) :
    w.sites.Perm (sitesOf keyword file n lines
      ++ allSites keyword (reader.given earlier w.reads)) := by
  induction h with
  | nil => exact .nil
  | ordinary hk _ ih =>
    rw [sitesOf_cons_none (siteOf?_of_ordinary hk)]
    exact ih
  | skip hk _ _ _ ih =>
    rw [sitesOf_cons_some (siteOf?_of_includes hk), Walk.sites_append,
      Walk.sites_passed]
    exact ih.cons _
  | @inline file n _ _ rest _ earlier target inside inner after hk _ _ hr _ _
      ihi iha =>
    rw [sitesOf_cons_some (siteOf?_of_includes hk), Walk.sites_append,
      Walk.sites_append, Walk.sites_entered, Walk.reads_append,
      Walk.reads_append, Walk.entered, Reader.given_inline hr,
      allSites_append, allSites_cons, List.append_assoc,
      List.singleton_append, List.cons_append]
    refine List.Perm.cons _ ((ihi.append iha).trans ?_)
    -- The directives behind this one in its file are met after those of the
    -- file that it brings in.
    rw [← List.append_assoc, ← List.append_assoc]
    exact List.perm_append_comm.append_right _

end Complete

end IncludeFlattener
