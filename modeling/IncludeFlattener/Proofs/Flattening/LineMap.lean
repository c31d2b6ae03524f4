/-
IncludeFlattener.Proofs.Flattening.LineMap — every line of the flattened
text shows the line that it is located at.

`Shows` says what can stand in the text for a line of a file: the line
itself, or an empty line for a directive whose target was taken in.
`Completes.shown` carries this through a walk, from the open run to the
chunks. The run that follows an included file begins with the line that
stands for the directive, so the lines of a run are not all copies, and the
induction has to say of the run what it says of the chunks.

That a directive shown as an empty line was not passed over as well is
conservation: no line is counted twice.
-/
import IncludeFlattener.Proofs.Flattening.Conservation
namespace IncludeFlattener

open Directive (classify Includes)

/-- The text shown for line `l` of a file with these lines. -/
inductive Shows (keyword : Keyword) (events : List Event) (file : Path)
    (lines : List Text) (l : Nat) : Text → Prop where
  | copy {line : Text} (hp : 0 < l) (hl : lines[l - 1]? = some line)
      (hk : ¬ keyword.text <+: line) :
      Shows keyword events file lines l line
  | standIn {line : Text} {target : Path} (hp : 0 < l)
      (hl : lines[l - 1]? = some line)
      (hk : Includes keyword file line target)
      (he : .inlining target file l ∈ events) :
      Shows keyword events file lines l []

theorem Shows.le_length {keyword : Keyword} {events : List Event}
    {file : Path} {lines : List Text} {l : Nat} {text : Text}
    (h : Shows keyword events file lines l text) :
    1 ≤ l ∧ l ≤ lines.length := by
  cases h with
  | copy hp hl _ =>
    have := (List.getElem?_eq_some_iff.1 hl).1
    omega
  | standIn hp hl _ _ =>
    have := (List.getElem?_eq_some_iff.1 hl).1
    omega

/-- The text at a place is what one of the files shows there. -/
def Shown (keyword : Keyword) (events : List Event)
    (files : List (Path × List Text)) (x : Origin × Text) : Prop :=
  ∃ lines, (x.1.1, lines) ∈ files ∧
    Shows keyword events x.1.1 lines x.1.2 x.2

theorem Shown.mono {keyword : Keyword} {events : List Event}
    {files more : List (Path × List Text)} {x : Origin × Text}
    (hm : files ⊆ more) (h : Shown keyword events files x) :
    Shown keyword events more x := by
  obtain ⟨lines, hf, hs⟩ := h
  exact ⟨lines, hm hf, hs⟩

theorem Directive.Includes.keyword_isPrefix {keyword : Keyword}
    {file : Path} {line : Text} {target : Path}
    (h : Includes keyword file line target) : keyword.text <+: line := by
  obtain ⟨quoted, hq, -⟩ := h
  refine Classical.byContradiction fun hn => ?_
  rw [← Directive.classify_eq_ordinary_iff, hq] at hn
  cases hn

/-- Where a file is left with `line` next, that is line `n` of the file. -/
theorem getElem?_of_drop_eq_cons {all rest : List Text} {line : Text}
    {n : Nat} (h : all.drop (n - 1) = line :: rest) :
    all[n - 1]? = some line := by
  have h0 : (all.drop (n - 1))[0]? = all[n - 1]? := List.getElem?_drop
  rw [h] at h0
  simpa using h0.symm

theorem drop_of_drop_eq_cons {all rest : List Text} {line : Text} {n : Nat}
    (hn : 0 < n) (h : all.drop (n - 1) = line :: rest) :
    all.drop (n + 1 - 1) = rest := by
  have h1 := List.drop_drop (l := all) (i := 1) (j := n - 1)
  rw [h, Nat.sub_add_cancel hn] at h1
  simpa using h1.symm

theorem Completes.shown {reader : Reader} {keyword : Keyword} {file : Path}
    {n : Nat} {run : Run} {lines : List Text} {visited earlier : List Path}
    {w : Walk} {events : List Event} {all : List Text}
    (h : Completes reader keyword file n run lines visited earlier w)
    (hlf : reader.LfFree) (hn : AtLine n run lines)
    (ha : all.drop (n - 1) = lines) (he : w.events ⊆ events)
    (hs : ∀ x ∈ run.placed file n, Shown keyword events [(file, all)] x) :
    ∀ x ∈ Chunk.placed w.chunks,
      Shown keyword events ((file, all) :: reader.given earlier w.reads) x
    := by
  induction h generalizing all with
  | nil =>
    intro x hx
    rw [Walk.closed, Run.placed_close hn.before] at hx
    exact (hs x hx).mono (by simp)
  | @ordinary file n run line rest _ _ _ hk _ ih =>
    have hpos := hn.before.pos
    refine ih hn.push (drop_of_drop_eq_cons hpos ha) he ?_
    intro x hx
    rw [Run.placed_push hn.before.length_le, List.mem_append,
      List.mem_singleton] at hx
    rcases hx with hx | rfl
    · exact hs x hx
    · exact ⟨all, by simp, .copy hpos (getElem?_of_drop_eq_cons ha)
        (Directive.classify_eq_ordinary_iff.1 hk)⟩
  | skip _ _ _ _ ih =>
    have ih := ih hn.pass (drop_of_drop_eq_cons hn.before.pos ha)
      (fun e hm => he (by simp [hm])) (by simp)
    intro x hx
    rw [Walk.chunks_append, Chunk.placed_append, List.mem_append] at hx
    rcases hx with hx | hx
    · rw [Walk.passed, Run.placed_close hn.before] at hx
      exact (hs x hx).mono (by simp)
    · simpa using ih x hx
  | @inline file n run line rest _ earlier target inside inner after hk _ _ hi
      _ _ ihi iha =>
    have hpos := hn.before.pos
    have hstandIn : ∀ x ∈ (Run.standIn n).placed file (n + 1),
        Shown keyword events [(file, all)] x := by
      intro x hx
      rw [Run.placed_standIn, List.mem_singleton] at hx
      subst hx
      exact ⟨all, by simp, .standIn hpos (getElem?_of_drop_eq_cons ha) hk
        (he (by simp))⟩
    have ihi := @ihi inside (.enter hlf hi) rfl
      (fun e hm => he (by simp [hm])) (by simp)
    have iha := iha hn.resume (drop_of_drop_eq_cons hpos ha)
      (fun e hm => he (by simp [hm])) hstandIn
    intro x hx
    rw [Walk.reads_append, Walk.reads_append, Walk.entered,
      Reader.given_inline hi]
    rw [Walk.chunks_append, Walk.chunks_append, Chunk.placed_append,
      Chunk.placed_append, List.mem_append, List.mem_append] at hx
    obtain (hx | hx) | hx := hx
    · rw [Walk.entered, Run.placed_close hn.before] at hx
      exact (hs x hx).mono (by simp)
    · refine (ihi x hx).mono ?_
      exact fun y hy => List.mem_cons_of_mem _ (List.mem_append_left _ hy)
    · refine (iha x hx).mono ?_
      exact List.cons_subset_cons _ (List.subset_append_right _ _)

/-! ## From the top -/

section Top

variable {reader : Reader} {keyword : Keyword} {path : Path} {w : Walk}
  {f : Flattened} (hlf : reader.LfFree)
  (hw : walk? reader keyword path = some w) (hf : w.result = .ok f)

include hlf hw hf

theorem shown_of_result_eq_ok : ∀ x ∈ Chunk.placed f.chunks,
    Shown keyword w.events (reader.given [] w.reads) x := by
  obtain ⟨lines, inner, hr, hi, rfl, rfl⟩ := exists_completes hw hf
  intro x hx
  rw [Reader.given_begun hr]
  exact hi.shown hlf (.enter hlf hr) rfl (by simp) (by simp) x hx

theorem length_lfLines_text :
    f.text.lfLines.length = Chunk.totalLines f.chunks := by
  have h := whole_of_result_eq_ok hlf hw hf
  rw [← Chunk.length_origins, ← Chunk.map_fst_placed h, Flattened.text,
    ← Chunk.map_snd_placed h, List.length_map, List.length_map]

/-- A line of the text stands beside the place at which it is located. -/
theorem mem_placed_of_getElem? {n : Nat} {text : Text} (h0 : 0 < n)
    (ht : f.text.lfLines[n - 1]? = some text) :
    ∃ o, Chunk.locate f.chunks n = some o ∧
      (o, text) ∈ Chunk.placed f.chunks := by
  have h := whole_of_result_eq_ok hlf hw hf
  rw [Flattened.text, ← Chunk.map_snd_placed h, List.getElem?_map,
    Option.map_eq_some_iff] at ht
  obtain ⟨⟨o, text⟩, hx, rfl⟩ := ht
  refine ⟨o, ?_, List.mem_of_getElem? hx⟩
  rw [Chunk.locate_eq_getElem? _ h0, ← Chunk.map_fst_placed h,
    List.getElem?_map, hx]
  rfl

theorem not_skipped_of_mem_placed {o : Origin} {text : Text}
    (h : (o, text) ∈ Chunk.placed f.chunks) :
    ∀ s ∈ f.skipped, ¬ (s.file = o.1 ∧ s.line = o.2) := by
  rintro s hs ⟨h1, h2⟩
  have ho : o ∈ Chunk.origins f.chunks := by
    rw [← Chunk.map_fst_placed (whole_of_result_eq_ok hlf hw hf)]
    exact List.mem_map_of_mem h
  have hn := nodup_origins_of_result_eq_ok hlf hw hf
  exact (List.nodup_append.1 hn).2.2 o ho s.origin (List.mem_map_of_mem hs)
    (Prod.ext h1.symm h2.symm)

/-- **The line map.** Every line of the text is located at a line of a file
that was read. That line is shown as it is, unless it starts with the
keyword: then it is a directive whose target was taken in, not one that was
passed over, and it is shown as an empty line. Nothing else is located. -/
theorem locate_line_of_text :
    (∀ n, n = 0 ∨ f.text.lfLines.length < n →
      Chunk.locate f.chunks n = none) ∧
    ∀ n, 1 ≤ n → n ≤ f.text.lfLines.length →
      ∃ file l lines line text,
        Chunk.locate f.chunks n = some (file, l) ∧
        (file, lines) ∈ reader.given [] w.reads ∧
        1 ≤ l ∧ l ≤ lines.length ∧ lines[l - 1]? = some line ∧
        f.text.lfLines[n - 1]? = some text ∧
        (¬ keyword.text <+: line → text = line) ∧
        (keyword.text <+: line → text = [] ∧
          (∃ target, Includes keyword file line target ∧
            .inlining target file l ∈ w.events) ∧
          ∀ s ∈ f.skipped, ¬ (s.file = file ∧ s.line = l)) := by
  constructor
  · intro n hn
    have hs := Chunk.locate_isSome_iff f.chunks n
    rw [← length_lfLines_text hlf hw hf] at hs
    rw [← Option.not_isSome_iff_eq_none, hs]
    omega
  · intro n h1 hn
    have ht := List.getElem?_eq_getElem (l := f.text.lfLines) (i := n - 1)
      (by omega)
    obtain ⟨o, ho, hx⟩ := mem_placed_of_getElem? hlf hw hf h1 ht
    have hskip := not_skipped_of_mem_placed hlf hw hf hx
    obtain ⟨lines, hfile, hs⟩ := shown_of_result_eq_ok hlf hw hf _ hx
    obtain ⟨hpos, hle⟩ := hs.le_length
    generalize f.text.lfLines[n - 1] = text at *
    cases hs with
    | copy _ hl hk =>
      exact ⟨o.1, o.2, lines, text, text, ho, hfile, hpos, hle, hl, ht,
        fun _ => rfl, fun hk' => absurd hk' hk⟩
    | @standIn line target _ hl hk he =>
      exact ⟨o.1, o.2, lines, line, [], ho, hfile, hpos, hle, hl, ht,
        fun hn => absurd hk.keyword_isPrefix hn,
        fun _ => ⟨rfl, ⟨target, hk, he⟩, hskip⟩⟩

end Top

/-! ## Two files that include each other -/

/-- The file `./a` includes `b` twice, and `b` includes `a`. -/
def twoFiles : Path → Answer
  | ['.', '/', 'a'] =>
    .ok [['#', '"', 'b', '"'], ['#', '"', 'b', '"'], ['y']]
  | ['b'] => .ok [['z'], ['#', '"', 'a', '"']]
  | _ => .error .missing

/-- The keyword in the two files. -/
def hash : Keyword := ⟨['#'], by decide⟩

/-- The walk from `./a`. -/
def twoFilesWalk : Walk where
  reads := [['.', '/', 'a'], ['b']]
  events := [.reading ['.', '/', 'a'], .inlining ['b'] ['.', '/', 'a'] 1,
    .reading ['b'], .skipping ['a'] ['b'] 2,
    .skipping ['b'] ['.', '/', 'a'] 2]
  visited := [['a'], ['b']]
  skipped := [⟨['b'], 2, ['a']⟩, ⟨['.', '/', 'a'], 2, ['b']⟩]
  chunks := [⟨['z', '\n'], ['b'], 0⟩, ⟨['\n'], ['.', '/', 'a'], 0⟩,
    ⟨['y', '\n'], ['.', '/', 'a'], 2⟩]

theorem lfFree_twoFiles : (Reader.steady twoFiles).LfFree := by
  intro earlier path lines h
  unfold Reader.steady twoFiles at h
  split at h
  · cases h
    unfold Text.LfFree
    decide
  · cases h
    unfold Text.LfFree
    decide
  · cases h

theorem walk?_twoFiles :
    walk? (.steady twoFiles) hash ['.', '/', 'a'] = some twoFilesWalk := by
  cbv

/-- The second line of the text stands for the first line of `./a`. -/
theorem locate_line_of_twoFiles :
    (Reader.steady twoFiles).LfFree ∧
    walk? (.steady twoFiles) hash ['.', '/', 'a'] = some twoFilesWalk ∧
    ∃ file l lines line text,
      Chunk.locate twoFilesWalk.chunks 2 = some (file, l) ∧
      (file, lines) ∈ (Reader.steady twoFiles).given [] twoFilesWalk.reads ∧
      1 ≤ l ∧ l ≤ lines.length ∧ lines[l - 1]? = some line ∧
      (Chunk.joined twoFilesWalk.chunks).lfLines[2 - 1]? = some text ∧
      (hash.text <+: line → text = []) := by
  refine ⟨lfFree_twoFiles, walk?_twoFiles, ?_⟩
  obtain ⟨file, l, lines, line, text, h1, h2, h3, h4, h5, h6, -, h7⟩ :=
    (locate_line_of_text lfFree_twoFiles walk?_twoFiles rfl).2 2 (by decide)
      (by decide)
  exact ⟨file, l, lines, line, text, h1, h2, h3, h4, h5, h6,
    fun hk => (h7 hk).1⟩

end IncludeFlattener
