/-
IncludeFlattener.Proofs.CommandLine.AllOrNothing — a run gives the whole text
or changes nothing.

`Effect` is what can be seen of a run apart from its log, and `effect` says
what it is, with neither a setting nor a report to depend on. `effect_run` is
the one place where a run is unfolded; that two runs which differ in their
logs only have the same effect is the same equation read twice.

The files are read before the output is written, so it does not matter to the
text whether the output is one of them.
-/
import IncludeFlattener.CommandLine
import IncludeFlattener.Proofs.FileTree.Making
import IncludeFlattener.Proofs.Flattening.Agreement
namespace IncludeFlattener

theorem Keyword.ofText?_text (keyword : Keyword) :
    ofText? keyword.text = some keyword := by
  rw [ofText?, dif_neg keyword.text_ne_nil]

/-! ## 1. The file that was written -/

namespace FileTree

/-- The text stands under the path, and everything else is as it was. -/
structure Wrote (before after : FileTree) (path : Path) (contents : Text) :
    Prop where
  read : after.readText? path = some contents
  others : ∃ place, before.newPlace? path = .ok place ∧
    ∀ other, other ≠ place → after.node? other = before.node? other

theorem wrote_of_write {before after : FileTree} {path : Path}
    {contents : Text}
    (h : before.write path (Text.Utf8.encode contents) = .ok after) :
    before.Wrote after path contents := by
  refine ⟨?_, ?_⟩
  · rw [readText?, read_of_write h]
    exact Text.Utf8.decode?_encode contents
  · obtain ⟨place, hp, rfl⟩ := exists_put_of_write h
    have hne : place ≠ [] := by
      unfold newPlace? at hp
      split at hp
      · cases hp
      · exact (node?_of_followNew hp).1
    refine ⟨place, hp, fun other ho => ?_⟩
    rw [node?_put _ _ _ _ hne, if_neg ho]

/-- What keeps a file from being written does so whatever it is to hold. -/
theorem newPlace?_of_write_eq_error {t : FileTree} {path : Path}
    {bytes : List UInt8} {trouble : Trouble}
    (h : t.write path bytes = .error trouble) :
    t.newPlace? path = .error trouble := by
  unfold write at h
  cases hp : t.newPlace? path with
  | ok place =>
    rw [hp] at h
    cases h
  | error other =>
    rw [hp] at h
    cases h
    rfl

end FileTree

namespace CommandLine

/-! ## 2. What a run does -/

/-- What a run does, its log apart. -/
structure Effect where
  status : Nat
  output : Text
  tree : FileTree

/-- What is seen of a run where its log is not. -/
def Effect.of (result : Outcome × FileTree) : Effect :=
  ⟨result.1.status, result.1.output, result.2⟩

/-- The effect of putting a text to an output. -/
def deliver (tree : FileTree) (text : Text) : Option Path → Effect
  | none => ⟨0, text, tree⟩
  | some path =>
    match tree.write path (Text.Utf8.encode text) with
    | .ok after => ⟨0, [], after⟩
    | .error _ => ⟨1, [], tree⟩

/-- The effect of a run that flattens a file, under a keyword with this text,
to an output. -/
def effect (tree : FileTree) (keyword : Text) (file : Path)
    (output : Option Path) : Effect :=
  match Keyword.ofText? keyword with
  | none => ⟨1, [], tree⟩
  | some keyword =>
    match flatten tree.source keyword file with
    | .error _ => ⟨1, [], tree⟩
    | .ok f => deliver tree f.text output

/-- The effect of a run depends on the file, the keyword and the output. -/
theorem effect_run {words : List Text} {args : Arguments}
    (ha : Arguments.ofWords words = .ok args) (settings : Settings)
    (tree : FileTree) (setting : Option Text) :
    Effect.of (runUnder settings tree setting words)
      = effect tree args.keyword args.file args.output := by
  rw [runUnder, ha, effect]
  unfold conclude flatten
  dsimp only
  cases Keyword.ofText? args.keyword with
  | none => rfl
  | some keyword =>
    dsimp only
    cases (walk tree.source keyword args.file).result with
    | error e => rfl
    | ok f =>
      cases args.output with
      | none => rfl
      | some path =>
        dsimp only [deliver]
        cases tree.write path (Text.Utf8.encode f.text) <;> rfl

section Cases

variable {tree : FileTree} {file : Path} {output : Option Path}

theorem effect_nil : effect tree [] file output = ⟨1, [], tree⟩ := rfl

theorem effect_of_flatten_eq_error {keyword : Keyword} {e : Failure}
    (hf : flatten tree.source keyword file = .error e) :
    effect tree keyword.text file output = ⟨1, [], tree⟩ := by
  simp only [effect, Keyword.ofText?_text, hf]

theorem effect_of_flatten_eq_ok {keyword : Keyword} {f : Flattened}
    (hf : flatten tree.source keyword file = .ok f) :
    effect tree keyword.text file output = deliver tree f.text output := by
  simp only [effect, Keyword.ofText?_text, hf]

/-- A text that is put under a path is there, or nothing can be there. -/
theorem deliver_some (text : Text) (path : Path) :
    (∃ after, deliver tree text (some path) = ⟨0, [], after⟩ ∧
      tree.Wrote after path text) ∨
    ∃ trouble, tree.newPlace? path = .error trouble ∧
      deliver tree text (some path) = ⟨1, [], tree⟩ := by
  cases hw : tree.write path (Text.Utf8.encode text) with
  | ok after =>
    refine .inl ⟨after, ?_, FileTree.wrote_of_write hw⟩
    simp only [deliver, hw]
  | error trouble =>
    refine .inr ⟨trouble, FileTree.newPlace?_of_write_eq_error hw, ?_⟩
    simp only [deliver, hw]

end Cases

/-! ## 3. All or nothing -/

/-- **All or nothing.** If the keyword is empty or the file cannot be
flattened, the status is 1, and nothing is put out or changed. Otherwise the
text goes to the standard output, and no file changes, or it goes to the
output path, and can be read there afterwards; but if there can be no file
under that path, the status is 1 and nothing changes. A run with other words
for the same file, keyword and output, and with another setting, does the
same. What settings mean is no matter. -/
theorem run_all_or_nothing {words : List Text} {args : Arguments}
    (ha : Arguments.ofWords words = .ok args) (settings : Settings)
    (tree : FileTree) (setting : Option Text) :
    ((args.keyword = [] ∨ ∃ (keyword : Keyword) (e : Failure),
        keyword.text = args.keyword ∧
        flatten tree.source keyword args.file = .error e) →
      Effect.of (runUnder settings tree setting words) = ⟨1, [], tree⟩) ∧
    (∀ (keyword : Keyword) (f : Flattened), keyword.text = args.keyword →
      flatten tree.source keyword args.file = .ok f →
      (args.output = none →
        Effect.of (runUnder settings tree setting words) = ⟨0, f.text, tree⟩) ∧
      ∀ path, args.output = some path →
        (∃ after, Effect.of (runUnder settings tree setting words) = ⟨0, [], after⟩ ∧
          tree.Wrote after path f.text) ∨
        ∃ trouble, tree.newPlace? path = .error trouble ∧
          Effect.of (runUnder settings tree setting words) = ⟨1, [], tree⟩) ∧
    ∀ setting' words' args', Arguments.ofWords words' = .ok args' →
      args'.file = args.file → args'.keyword = args.keyword →
      args'.output = args.output →
      Effect.of (runUnder settings tree setting' words')
        = Effect.of (runUnder settings tree setting words) := by
  have hrun := effect_run ha settings tree setting
  rw [hrun]
  refine ⟨?_, ?_, ?_⟩
  · rintro (hk | ⟨keyword, e, hk, hf⟩)
    · rw [hk, effect_nil]
    · rw [← hk, effect_of_flatten_eq_error hf]
  · intro keyword f hk hf
    rw [← hk, effect_of_flatten_eq_ok hf]
    refine ⟨fun ho => by rw [ho]; rfl, fun path ho => ?_⟩
    rw [ho]
    exact deliver_some f.text path
  · intro setting' words' args' ha' hfile hkeyword houtput
    rw [effect_run ha' settings tree setting', hfile, hkeyword, houtput]

/-- The file `a` includes `b`. -/
def chaptersFiles : List (Path × Text) :=
  [(['a'], "//#include \"b\"\nx".toList), (['b'], ['y'])]

/-- The tree in which these files were made. -/
def chapters : FileTree := .ofEntries (chaptersFiles.map FileTree.entryOf)

theorem holdsOnly_chapters : chapters.HoldsOnly chaptersFiles :=
  FileTree.holdsOnly_foldl_make
    ⟨by decide, by decide, by decide, by decide⟩ _

/-- What is read there. -/
def chaptersAnswers : Path → Answer
  | ['a'] => .ok ["//#include \"b\"".toList, ['x']]
  | ['b'] => .ok [['y']]
  | _ => .error .missing

theorem map_read_chapters :
    [['a'], ['b']].map chapters.source.read
        = [['a'], ['b']].map chaptersAnswers ∧
      [['c']].map chapters.source.read = [['c']].map chaptersAnswers := by
  have ha : chapters.lines ['a'] = chaptersAnswers ['a'] :=
    holdsOnly_chapters.holds.lines_eq List.mem_cons_self (by decide)
  have hb : chapters.lines ['b'] = chaptersAnswers ['b'] :=
    holdsOnly_chapters.holds.lines_eq (List.mem_of_getElem? (i := 1) rfl)
      (by decide)
  have hc : chapters.lines ['c'] = chaptersAnswers ['c'] :=
    holdsOnly_chapters.lines_eq_missing (by decide) (by decide) rfl (by decide)
  constructor
  · exact congrArg₂ (· :: · :: []) ha hb
  · exact congrArg (· :: []) hc

/-- The flattened text of `a`. -/
def chaptersText : Flattened where
  chunks := [⟨['y', '\n'], ['b'], 0⟩, ⟨"\nx\n".toList, ['a'], 0⟩]
  visited := [['a'], ['b']]
  skipped := []

/-- Words that ask for `a` to be written over `b`. -/
def overB : List Text :=
  [['a'], ['-', 'o'], ['b'], "--report".toList]

/-- The text of `a` is written over `b`, which is a part of it. The same run
without a report and with another log does the same, and a run for a file that
is not there leaves `b` alone. -/
theorem run_all_or_nothing_overB :
    Arguments.ofWords overB
      = .ok ⟨['a'], Keyword.default.text, some ['b'], true⟩ ∧
    flatten chapters.source .default ['a'] = .ok chaptersText ∧
    (∃ after, Effect.of (run chapters none overB) = ⟨0, [], after⟩ ∧
      after.readText? ['b'] = some "y\n\nx\n".toList) ∧
    Effect.of (run chapters (some "off".toList) ["--output=b".toList, ['a']])
      = Effect.of (run chapters none overB) ∧
    Effect.of (run chapters none [['c'], "-ob".toList])
      = ⟨1, [], chapters⟩ := by
  have ha : Arguments.ofWords overB
      = .ok ⟨['a'], Keyword.default.text, some ['b'], true⟩ := rfl
  have hc : Arguments.ofWords [['c'], "-ob".toList]
      = .ok ⟨['c'], Keyword.default.text, some ['b'], false⟩ := rfl
  obtain ⟨hreadAB, hreadC⟩ := map_read_chapters
  have hf : (walk? chapters.source.reader .default ['a']).map Walk.result
      = some (.ok chaptersText) :=
    map_walk?_of_answers chaptersAnswers [['a'], ['b']] (by cbv) hreadAB
  have he : (walk? chapters.source.reader .default ['c']).map Walk.result
      = some (.error (.missing ['c'])) :=
    map_walk?_of_answers chaptersAnswers [['c']] (by cbv) hreadC
  have hb := holdsOnly_chapters.holds.newPlace?_eq
    (List.mem_of_getElem? (i := 1) rfl) (by decide)
  rw [walk?_eq_some_walk, Option.map_some, Option.some.injEq] at hf he
  obtain ⟨-, hok, hsame⟩ := run_all_or_nothing ha .byRules chapters none
  refine ⟨ha, hf, ?_, ?_, ?_⟩
  · obtain ⟨after, hr, hw⟩ | ⟨trouble, ht, -⟩ :=
      (hok .default chaptersText rfl hf).2 ['b'] rfl
    · exact ⟨after, hr, hw.read⟩
    · cases hb.symm.trans ht
  · exact hsame _ _ ⟨['a'], Keyword.default.text, some ['b'], false⟩
      rfl rfl rfl rfl
  · exact (run_all_or_nothing hc .byRules chapters none).1
      (.inr ⟨.default, .missing ['c'], rfl, he⟩)

end CommandLine

end IncludeFlattener
