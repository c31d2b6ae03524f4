/-
IncludeFlattener.Proofs.Flattening.Directives — every directive is accounted
for, and only once.

A walk meets the directives of a file where they stand, and those of an
included file behind the directive that brought it in (`DepthFirst`). Each
one is passed over, and then it is one of the skipped directives, or it
brings its target into the text. `directives_accounted` says that nothing
else is listed and nothing is listed twice, so there are as many directives
as there are skipped ones and files besides the one at the top.

The directives that the walk met are those of the files in the text
(`mem_sites_iff`). Two of them stand at two places, so what is listed for a
place is what became of one directive (`eq_of_mem_sites`); and no file is
marked twice, so no two of them brought in one file (`bringsAlone_of_mem`).
-/
import IncludeFlattener.Proofs.Flattening.Bijection
import IncludeFlattener.Proofs.Flattening.Sites
namespace IncludeFlattener

open Directive (classify Includes)

/-! ## 1. Depth-first order -/

/-- The directives met from line `n` of a file on, in depth-first order:
behind one that is not passed over stand those of the file that it names. -/
inductive DepthFirst (read : Path → Answer) (keyword : Keyword)
    (skipped : List SkippedInclude) :
    Path → Nat → List Text → List Site → Prop where
  | nil {file : Path} {n : Nat} :
      DepthFirst read keyword skipped file n [] []
  | ordinary {file : Path} {n : Nat} {line : Text} {rest : List Text}
      {sites : List Site} (hk : ¬ keyword.text <+: line)
      (ha : DepthFirst read keyword skipped file (n + 1) rest sites) :
      DepthFirst read keyword skipped file n (line :: rest) sites
  | passed {file : Path} {n : Nat} {line : Text} {rest : List Text}
      {target : Path} {sites : List Site}
      (hk : Includes keyword file line target)
      (hp : ⟨file, n, target⟩ ∈ skipped)
      (ha : DepthFirst read keyword skipped file (n + 1) rest sites) :
      DepthFirst read keyword skipped file n (line :: rest)
        (⟨file, n, target⟩ :: sites)
  | taken {file : Path} {n : Nat} {line : Text} {rest inside : List Text}
      {target : Path} {inner sites : List Site}
      (hk : Includes keyword file line target)
      (hp : ⟨file, n, target⟩ ∉ skipped) (hr : read target = .ok inside)
      (hi : DepthFirst read keyword skipped target 1 inside inner)
      (ha : DepthFirst read keyword skipped file (n + 1) rest sites) :
      DepthFirst read keyword skipped file n (line :: rest)
        (⟨file, n, target⟩ :: (inner ++ sites))

theorem Completes.depthFirst {read : Path → Answer} {keyword : Keyword}
    {file : Path} {n : Nat} {run : Run} {lines : List Text}
    {visited earlier : List Path} {w : Walk} {skipped : List SkippedInclude}
    (h : Completes (.steady read) keyword file n run lines visited earlier w)
    (hs : ∀ s ∈ w.skippedSites, s.skipped ∈ skipped)
    (hb : ∀ s ∈ w.brought, s.skipped ∉ skipped) :
    DepthFirst read keyword skipped file n lines w.sites := by
  induction h with
  | nil => exact .nil
  | ordinary hk _ ih =>
    exact .ordinary (Directive.classify_eq_ordinary_iff.1 hk) (ih hs hb)
  | skip hk _ _ _ ih =>
    rw [Walk.skippedSites_append, Walk.skippedSites_passed,
      List.forall_mem_append, List.forall_mem_singleton] at hs
    rw [Walk.sites_append, Walk.sites_passed]
    exact .passed hk hs.1 (ih hs.2 hb)
  | inline hk _ _ hr _ _ ihi iha =>
    rw [Walk.skippedSites_append, Walk.skippedSites_append,
      List.forall_mem_append, List.forall_mem_append] at hs
    rw [Walk.brought_append, Walk.brought_append, Walk.brought_entered,
      List.forall_mem_append, List.forall_mem_append,
      List.forall_mem_singleton] at hb
    rw [Walk.sites_append, Walk.sites_append, Walk.sites_entered,
      List.append_assoc, List.singleton_append]
    exact .taken hk hb.1.1 hr (ihi hs.1.2 hb.1.2) (iha hs.2 hb.2)

/-! ## 2. From the top -/

namespace Flattened

/-- A directive of one of the files in a text. -/
def HasSite (f : Flattened) (read : Path → Answer) (keyword : Keyword)
    (top : Path) (s : Site) : Prop :=
  ∃ key ∈ f.visited, ∃ lines line, s.file = Path.spelled top key ∧
    read s.file = .ok lines ∧ 0 < s.line ∧
    lines[s.line - 1]? = some line ∧ Includes keyword s.file line s.target

/-- The directive is among those that were passed over, once, and nothing
else is listed for its line. -/
def PassesOver (f : Flattened) (s : Site) : Prop :=
  f.skipped.count s.skipped = 1 ∧
    ∀ k ∈ f.skipped, k.file = s.file → k.line = s.line → k = s.skipped

end Flattened

/-- The directive brought its target into the text, and no other one did. -/
def Walk.BringsAlone (w : Walk) (s : Site) : Prop :=
  s ∈ w.brought ∧ ∀ s' ∈ w.brought, s'.target = s.target → s' = s

section Top

variable {read : Path → Answer} {keyword : Keyword} {top : Path} {w : Walk}
  {f : Flattened}
  (hw : walk? (.steady read) keyword top = some w) (hf : w.result = .ok f)

include hw hf

theorem skipped_eq_map : f.skipped = w.skippedSites.map Site.skipped := by
  obtain ⟨lines, inner, -, hi, rfl, rfl⟩ := exists_completes hw hf
  exact hi.skipped_eq

theorem visited_eq_cons :
    f.visited = Path.collapse top :: w.brought.map Site.target := by
  obtain ⟨lines, inner, -, hi, rfl, rfl⟩ := exists_completes hw hf
  exact congrArg _ hi.visited_eq

theorem nodup_visited : f.visited.Nodup := by
  obtain ⟨lines, inner, -, hi, -, rfl⟩ := exists_completes hw hf
  exact hi.scans.nodup_visited (by simp)

theorem perm_sites_of_result_eq_ok : w.sites.Perm
    (allSites keyword ((Reader.steady read).given [] w.reads)) := by
  obtain ⟨lines, inner, hr, hi, rfl, -⟩ := exists_completes hw hf
  rw [Reader.given_begun hr, allSites_cons]
  exact hi.perm_sites

theorem not_malformed_of_result_eq_ok :
    ∀ x ∈ (Reader.steady read).given [] w.reads, ∀ line ∈ x.2,
      classify keyword line ≠ .malformed := by
  obtain ⟨lines, inner, hr, hi, rfl, -⟩ := exists_completes hw hf
  rw [Reader.given_begun hr]
  exact hi.not_malformed

/-- The walk met the directives of the files in the text, and no others. -/
theorem mem_sites_iff {s : Site} :
    s ∈ w.sites ↔ f.HasSite read keyword top s := by
  rw [(perm_sites_of_result_eq_ok hw hf).mem_iff, allSites,
    List.mem_flatMap, reads_eq_map_spelled hw hf]
  constructor
  · rintro ⟨⟨path, lines⟩, hg, hs⟩
    obtain ⟨hm, hp⟩ := Reader.mem_given_steady.1 hg
    obtain ⟨key, hk, rfl⟩ := List.mem_map.1 hm
    obtain ⟨h1, h2, line, h3, h4⟩ := mem_sitesOf.1 hs
    exact ⟨key, hk, lines, line, h1, h1 ▸ hp, h2, h3, h1 ▸ h4⟩
  · rintro ⟨key, hk, lines, line, h1, hp, h2, h3, h4⟩
    refine ⟨(s.file, lines), Reader.mem_given_steady.2 ⟨?_, hp⟩,
      mem_sitesOf.2 ⟨rfl, h2, line, h3, h4⟩⟩
    rw [h1]
    exact List.mem_map_of_mem hk

theorem nodup_origins_sites : (w.sites.map Site.origin).Nodup := by
  have hp := (perm_sites_of_result_eq_ok hw hf).map Site.origin
  have hs := (Reader.steady read).map_fst_given_sublist [] w.reads
  exact hp.nodup_iff.2 (nodup_origins_allSites (hs.nodup (nodup_reads hw)))

/-- No directive that brought its target in was passed over as well. -/
theorem disjoint_brought_skippedSites : w.brought.Disjoint w.skippedSites :=
  List.disjoint_of_nodup_append
    (w.perm_sites.nodup_iff.1 (nodup_origins_sites hw hf).of_map)

/-- A line that starts with the keyword is a directive with a target. -/
theorem exists_hasSite {key : Path} {lines : List Text} {l : Nat}
    {line : Text} (hk : key ∈ f.visited)
    (hr : read (Path.spelled top key) = .ok lines) (h0 : 0 < l)
    (hl : lines[l - 1]? = some line) (hp : keyword.text <+: line) :
    ∃ target,
      f.HasSite read keyword top ⟨Path.spelled top key, l, target⟩ := by
  have hg : (Path.spelled top key, lines)
      ∈ (Reader.steady read).given [] w.reads := by
    rw [reads_eq_map_spelled hw hf]
    exact Reader.mem_given_steady.2 ⟨List.mem_map_of_mem hk, hr⟩
  have hm := not_malformed_of_result_eq_ok hw hf _ hg line
    (List.mem_of_getElem? hl)
  cases hc : classify keyword line with
  | ordinary => exact absurd hp (Directive.classify_eq_ordinary_iff.1 hc)
  | malformed => exact absurd hc hm
  | directive quoted =>
    exact ⟨Path.join (Path.spelled top key) quoted, key, hk, lines, line, rfl,
      hr, h0, hl, quoted, hc, rfl⟩

/-- Two directives at one place are one. -/
theorem eq_of_mem_sites {s s' : Site} (h : s ∈ w.sites) (h' : s' ∈ w.sites)
    (hf' : s'.file = s.file) (hl : s'.line = s.line) : s' = s :=
  List.inj_on_of_nodup_map (nodup_origins_sites hw hf) h' h
    (Prod.ext hf' hl)

theorem skipped_mem_of_mem {s : Site} (h : s ∈ w.skippedSites) :
    s.skipped ∈ f.skipped := by
  rw [skipped_eq_map hw hf]
  exact List.mem_map_of_mem h

theorem passesOver_of_mem {s : Site} (h : s ∈ w.skippedSites) :
    f.PassesOver s := by
  have hs := skipped_eq_map hw hf
  have hn := (nodup_origins_sites hw hf).of_map
  have hn := (List.nodup_append.1 (w.perm_sites.nodup_iff.1 hn)).2.1
  constructor
  · refine List.count_eq_one_of_mem ?_ (skipped_mem_of_mem hw hf h)
    rw [hs]
    refine hn.map_on ?_
    rintro ⟨⟩ - ⟨⟩ - ⟨⟩
    rfl
  · rw [hs]
    intro k hk hfile hline
    obtain ⟨s', hs', rfl⟩ := List.mem_map.1 hk
    exact congrArg _ (eq_of_mem_sites hw hf (w.skippedSites_subset h)
      (w.skippedSites_subset hs') hfile hline)

theorem bringsAlone_of_mem {s : Site} (h : s ∈ w.brought) :
    w.BringsAlone s := by
  have hn := nodup_visited hw hf
  rw [visited_eq_cons hw hf] at hn
  exact ⟨h, fun s' hs' ht =>
    List.inj_on_of_nodup_map (List.nodup_cons.1 hn).2 hs' h ht⟩

theorem not_skipped_of_mem_brought {s : Site} (h : s ∈ w.brought) :
    ∀ k ∈ f.skipped, ¬ (k.file = s.file ∧ k.line = s.line) := by
  rw [skipped_eq_map hw hf]
  rintro k hk ⟨hfile, hline⟩
  obtain ⟨s', hs', rfl⟩ := List.mem_map.1 hk
  have he := eq_of_mem_sites hw hf (w.brought_subset h)
    (w.skippedSites_subset hs') hfile hline
  exact disjoint_brought_skippedSites hw hf h (he ▸ hs')

theorem target_mem_visited : ∀ k ∈ f.skipped, k.target ∈ f.visited := by
  obtain ⟨lines, inner, -, hi, -, rfl⟩ := exists_completes hw hf
  exact hi.target_mem_visited

theorem skipped_not_mem_of_mem {s : Site} (h : s ∈ w.brought) :
    s.skipped ∉ f.skipped := fun hk =>
  not_skipped_of_mem_brought hw hf h s.skipped hk ⟨rfl, rfl⟩

/-- In the order in which they were met, the directives are found again in
the account. -/
theorem filter_sites_of_result_eq_ok :
    f.skipped
      = (w.sites.filter (·.skipped ∈ f.skipped)).map Site.skipped ∧
    f.visited.tail
      = (w.sites.filter (·.skipped ∉ f.skipped)).map Site.target := by
  obtain ⟨h1, h2⟩ := Event.filter_sites w.events
    (fun s => skipped_mem_of_mem hw hf) (fun s => skipped_not_mem_of_mem hw hf)
  constructor
  · exact (skipped_eq_map hw hf).trans (congrArg _ h1.symm)
  · rw [visited_eq_cons hw hf]
    exact congrArg _ h2.symm

theorem depthFirst_of_result_eq_ok : ∃ lines, read top = .ok lines ∧
    DepthFirst read keyword f.skipped top 1 lines w.sites := by
  have hs := fun s => skipped_mem_of_mem (s := s) hw hf
  have hb := fun s => skipped_not_mem_of_mem (s := s) hw hf
  obtain ⟨lines, inner, hr, hi, rfl, -⟩ := exists_completes hw hf
  exact ⟨lines, hr, hi.depthFirst hs hb⟩

/-- There are as many directives as files that they brought in and directives
that were passed over. -/
theorem sum_directiveCount :
    (f.visited.map fun key =>
        (read (Path.spelled top key)).directiveCount keyword).sum
      = f.visited.length - 1 + f.skipped.length := by
  have hlen := length_allSites_given_steady
    (not_malformed_of_result_eq_ok hw hf)
  have hp := (perm_sites_of_result_eq_ok hw hf).length_eq
  have hs := w.perm_sites.length_eq
  rw [reads_eq_map_spelled hw hf, List.map_map] at hlen
  rw [reads_eq_map_spelled hw hf] at hp
  rw [List.length_append] at hs
  have hv := congrArg List.length (visited_eq_cons hw hf)
  have hk := congrArg List.length (skipped_eq_map hw hf)
  rw [List.length_cons, List.length_map] at hv
  rw [List.length_map] at hk
  have hsum : (f.visited.map fun key =>
      (read (Path.spelled top key)).directiveCount keyword).sum
        = w.sites.length := hlen.symm.trans hp.symm
  omega

end Top

/-! ## 3. The account -/

/-- What the account of a text says of the directives of its files. -/
structure Accounts (read : Path → Answer) (keyword : Keyword) (top : Path)
    (w : Walk) (f : Flattened) : Prop where
  /-- Each line that starts with the keyword is a directive with a target. -/
  named : ∀ key ∈ f.visited, ∀ lines l line,
    read (Path.spelled top key) = .ok lines → 0 < l →
    lines[l - 1]? = some line → keyword.text <+: line →
    ∃ target, f.HasSite read keyword top ⟨Path.spelled top key, l, target⟩
  /-- Each directive is passed over, or it alone brought its target in. -/
  once : ∀ s, f.HasSite read keyword top s →
    f.PassesOver s ∧ s ∉ w.brought ∨
    (∀ k ∈ f.skipped, ¬ (k.file = s.file ∧ k.line = s.line)) ∧
      w.BringsAlone s
  /-- Only directives are passed over, and only if their target is in the
  text. -/
  listed : ∀ k ∈ f.skipped,
    f.HasSite read keyword top ⟨k.file, k.line, k.target⟩ ∧
      k.target ∈ f.visited
  /-- The files are the one at the top and those that were brought in. -/
  visited_eq : f.visited = Path.collapse top :: w.brought.map Site.target
  /-- One directive of the files brought each of them in. -/
  brought : ∀ key ∈ f.visited.tail, ∃! s, f.HasSite read keyword top s ∧
    s ∈ w.brought ∧ s.target = key
  /-- There are as many lines that start with the keyword as files that were
  brought in and directives that were passed over. -/
  count : (f.visited.map fun key =>
      (read (Path.spelled top key)).directiveCount keyword).sum
    = f.visited.length - 1 + f.skipped.length
  /-- Both are listed in the depth-first order of the directives. -/
  order : ∃ lines sites, read top = .ok lines ∧
    DepthFirst read keyword f.skipped top 1 lines sites ∧
    f.skipped = (sites.filter (·.skipped ∈ f.skipped)).map Site.skipped ∧
    f.visited.tail
      = (sites.filter (·.skipped ∉ f.skipped)).map Site.target

/-- **Every directive is accounted for, once.** Where a text comes out, each
directive of its files is passed over and listed for that, or it brought its
target into the text and is the only one that did; and nothing else is
listed. -/
theorem directives_accounted {read : Path → Answer} {keyword : Keyword}
    {top : Path} {w : Walk} {f : Flattened}
    (hw : walk? (.steady read) keyword top = some w)
    (hf : w.result = .ok f) : Accounts read keyword top w f where
  named key hk lines l line := exists_hasSite hw hf hk
  once s hs := by
    have hm := w.perm_sites.mem_iff.1 ((mem_sites_iff hw hf).2 hs)
    rcases List.mem_append.1 hm with hb | hk
    · exact .inr ⟨not_skipped_of_mem_brought hw hf hb,
        bringsAlone_of_mem hw hf hb⟩
    · exact .inl ⟨passesOver_of_mem hw hf hk, fun hb =>
        disjoint_brought_skippedSites hw hf hb hk⟩
  listed k hk := by
    refine ⟨?_, target_mem_visited hw hf k hk⟩
    rw [skipped_eq_map hw hf] at hk
    obtain ⟨s, hs, rfl⟩ := List.mem_map.1 hk
    exact (mem_sites_iff hw hf).1 (w.skippedSites_subset hs)
  visited_eq := visited_eq_cons hw hf
  brought key hk := by
    rw [visited_eq_cons hw hf] at hk
    obtain ⟨s, hs, rfl⟩ := List.mem_map.1 hk
    refine ⟨s, ⟨(mem_sites_iff hw hf).1 (w.brought_subset hs), hs, rfl⟩, ?_⟩
    rintro s' ⟨-, hs', ht⟩
    exact (bringsAlone_of_mem hw hf hs).2 s' hs' ht
  count := sum_directiveCount hw hf
  order := by
    obtain ⟨lines, hr, hd⟩ := depthFirst_of_result_eq_ok hw hf
    exact ⟨lines, w.sites, hr, hd, filter_sites_of_result_eq_ok hw hf⟩

/-- Of the three directives in the two files that include each other, the
first one of `./a` brought `b` in, and the others were passed over. -/
theorem directives_accounted_twoFiles :
    walk? (.steady twoFiles) hash ['.', '/', 'a'] = some twoFilesWalk ∧
    twoFilesWalk.result = .ok twoFilesText ∧
    Accounts twoFiles hash ['.', '/', 'a'] twoFilesWalk twoFilesText ∧
    twoFilesText.visited.length - 1 + twoFilesText.skipped.length = 3 :=
  ⟨walk?_twoFiles, rfl, directives_accounted walk?_twoFiles rfl, rfl⟩

end IncludeFlattener
