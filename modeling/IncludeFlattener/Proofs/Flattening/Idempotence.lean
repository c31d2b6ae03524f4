/-
IncludeFlattener.Proofs.Flattening.Idempotence — flattening leaves nothing to
flatten.

The argument has two halves. No line of a flattened text starts with the
keyword: it is a line that was copied, or the empty line of a directive, and
the keyword is not empty. And a text of such lines is a fixed point: its walk
pushes line after line into one run, and closes that run.

Between the two the text is cut into lines again. It comes out as the lines
that went in (`Chunk.joined_eq_endLines`), unless a CR LF stands in it, whose
CR the line cutter drops.
-/
import IncludeFlattener.Proofs.Flattening.Agreement
import IncludeFlattener.Proofs.Flattening.LineMap
import IncludeFlattener.Proofs.Text.Lines
import IncludeFlattener.FileTree.Source
import IncludeFlattener.Source.Store
namespace IncludeFlattener

open Directive (classify)

/-! ## 1. Lines that the sources give -/

theorem Store.lfFree_reader (s : Store) : s.source.reader.LfFree := by
  intro _ path lines hr
  obtain ⟨contents, -, rfl⟩ := Store.read_eq_ok_iff.1 hr
  exact Text.lfFree_splitLines contents

theorem FileTree.lfFree_reader (t : FileTree) : t.source.reader.LfFree := by
  intro _ path lines hr
  obtain ⟨bytes, -, hl⟩ := FileTree.lines_eq_ok_iff.1 hr
  exact Text.Utf8.lfFree_of_lines? hl

/-! ## 2. No line of the text is a directive -/

theorem Shows.not_isPrefix {keyword : Keyword} {events : List Event}
    {file : Path} {lines : List Text} {l : Nat} {text : Text}
    (h : Shows keyword events file lines l text) :
    ¬ keyword.text <+: text := by
  cases h with
  | copy _ _ hk => exact hk
  | standIn => exact fun hp => keyword.text_ne_nil (List.prefix_nil.1 hp)

theorem not_isPrefix_of_result_eq_ok {reader : Reader} {keyword : Keyword}
    {path : Path} {w : Walk} {f : Flattened} (hlf : reader.LfFree)
    (hw : walk? reader keyword path = some w) (hf : w.result = .ok f) :
    ∀ line ∈ f.text.lfLines, ¬ keyword.text <+: line := by
  intro line hm
  rw [Flattened.text,
    ← Chunk.map_snd_placed (whole_of_result_eq_ok hlf hw hf)] at hm
  obtain ⟨x, hx, rfl⟩ := List.mem_map.1 hm
  obtain ⟨lines, -, hs⟩ := shown_of_result_eq_ok hlf hw hf x hx
  exact hs.not_isPrefix

/-! ## 3. A text without directives -/

theorem Run.push_of_first {r : Run} {n : Nat} (h : r.lines = [] → r.first = n)
    (line : Text) : r.push n line = ⟨r.first, r.lines ++ [line]⟩ := by
  unfold Run.push
  split
  · rename_i hr
    rw [h hr, hr, List.nil_append]
  · rfl

/-- Ordinary lines go into the open run, which is closed behind them. -/
theorem completes_of_ordinary {reader : Reader} {keyword : Keyword}
    {file : Path} {n : Nat} {run : Run} {lines : List Text}
    {visited earlier : List Path} (hr : run.lines = [] → run.first = n)
    (hl : ∀ line ∈ lines, classify keyword line = .ordinary) :
    Completes reader keyword file n run lines visited earlier
      (.closed ⟨run.first, run.lines ++ lines⟩ file) := by
  induction lines generalizing n run with
  | nil =>
    rw [List.append_nil]
    exact .nil
  | cons line rest ih =>
    -- Only an empty run takes its start from the line that is pushed, and an
    -- empty run starts there already: the start is the same all the way.
    obtain ⟨hk, hl⟩ := List.forall_mem_cons.1 hl
    have hrest := @ih (n + 1) ⟨run.first, run.lines ++ [line]⟩ (by simp) hl
    rw [List.append_assoc, List.singleton_append] at hrest
    refine .ordinary hk ?_
    rw [Run.push_of_first hr line]
    exact hrest

/-- A file in memory without directives is the whole text, in one chunk. -/
theorem flatten_store_of_ordinary {store : Store} {path : Path} {text : Text}
    (hs : store.get? path = some text) {keyword : Keyword}
    (hl : ∀ line ∈ text.splitLines, ¬ keyword.text <+: line) :
    flatten store.source keyword path
      = .ok ⟨(⟨1, text.splitLines⟩ : Run).close path, [Path.collapse path],
          []⟩ := by
  have hr : store.source.reader [] path = .ok text.splitLines :=
    Store.read_eq_ok_iff.2 ⟨text, hs, rfl⟩
  have hc := @completes_of_ordinary store.source.reader keyword path 1 .empty
    text.splitLines [Path.collapse path] [path] (fun _ => rfl)
    fun line hm => Directive.classify_eq_ordinary_iff.2 (hl line hm)
  have hf := hc.flatten?_eq hr
  rwa [flatten?, walk?_eq_some_walk, Option.map_some,
    Option.some.injEq] at hf

/-! ## 4. The text cut into lines again -/

theorem Chunk.joined_eq_endLines {chunks : List Chunk}
    (h : ∀ c ∈ chunks, c.Whole) :
    joined chunks = Text.endLines (joined chunks).lfLines := by
  induction chunks with
  | nil => rfl
  | cons c rest ih =>
    obtain ⟨⟨lines, hs, hl⟩, h⟩ := List.forall_mem_cons.1 h
    have ih := ih h
    rw [joined] at ih ⊢
    rw [List.flatMap_cons, hs, Text.lfLines_endLines_append hl,
      Text.endLines_append, ← ih]

/-- A flattened text without a CR LF is made of the lines that the line
cutter finds in it. -/
theorem endLines_splitLines_text {reader : Reader} {keyword : Keyword}
    {path : Path} {w : Walk} {f : Flattened} (hlf : reader.LfFree)
    (hw : walk? reader keyword path = some w) (hf : w.result = .ok f)
    (hcr : ¬ ['\r', '\n'] <:+: f.text) :
    Text.endLines f.text.splitLines = f.text := by
  rw [Text.splitLines_eq_lfLines hcr]
  exact (Chunk.joined_eq_endLines (whole_of_result_eq_ok hlf hw hf)).symm

theorem Run.length_close_le_one (r : Run) (file : Path) :
    (r.close file).length ≤ 1 := by
  unfold Run.close
  split <;> simp

theorem Run.lineOffset_of_mem_close {r : Run} {file : Path} {c : Chunk}
    (h : c ∈ r.close file) : c.lineOffset = r.first - 1 := by
  unfold Run.close at h
  split at h
  · cases h
  · rw [List.mem_singleton.1 h]

/-! ## 5. Flattening twice -/

/-- **Flattening is idempotent.** No line of a flattened text starts with the
keyword, whether or not a CR before the LF counts to the line. If the text
holds no CR LF and is put under any path of a store, flattening that path
gives the text again, made of that one file and of one chunk at most. -/
theorem flatten_flattened {source : Source}
    (hs : (∃ store : Store, source = store.source) ∨
      ∃ tree : FileTree, source = tree.source)
    {keyword : Keyword} {top : Path} {f : Flattened}
    (hf : flatten source keyword top = .ok f) :
    (∀ line ∈ f.text.lfLines, ¬ keyword.text <+: line) ∧
    (∀ line ∈ f.text.splitLines, ¬ keyword.text <+: line) ∧
    (¬ ['\r', '\n'] <:+: f.text →
      ∀ (store : Store) (path : Path), store.get? path = some f.text →
        ∃ again, flatten store.source keyword path = .ok again ∧
          again.text = f.text ∧ again.visited = [Path.collapse path] ∧
          again.skipped = [] ∧ again.chunks.length ≤ 1 ∧
          ∀ c ∈ again.chunks, c.lineOffset = 0) := by
  have hlf : source.reader.LfFree := by
    rcases hs with ⟨store, rfl⟩ | ⟨tree, rfl⟩
    · exact store.lfFree_reader
    · exact tree.lfFree_reader
  have hw := walk?_eq_some_walk source keyword top
  have hno := not_isPrefix_of_result_eq_ok hlf hw hf
  have hsplit := Text.not_isPrefix_of_mem_splitLines hno
  refine ⟨hno, hsplit, fun hcr store path hput => ?_⟩
  refine ⟨_, flatten_store_of_ordinary hput hsplit, ?_, rfl, rfl,
    Run.length_close_le_one _ path, fun c => Run.lineOffset_of_mem_close⟩
  rw [Flattened.text, Run.joined_close]
  exact endLines_splitLines_text hlf hw hf hcr

/-- The file `a` includes `b` between two lines. -/
def sandwich : Store :=
  .ofList [(['a'], "x\n#\"b\"\ny".toList), (['b'], "z\r\n".toList)]

/-- What is read there. -/
def sandwichAnswers : Path → Answer
  | ['a'] => .ok [['x'], "#\"b\"".toList, ['y']]
  | ['b'] => .ok [['z']]
  | _ => .error .missing

/-- The flattened text of `a`. -/
def sandwichText : Flattened where
  chunks := [⟨['x', '\n'], ['a'], 0⟩, ⟨['z', '\n'], ['b'], 0⟩,
    ⟨['\n', 'y', '\n'], ['a'], 1⟩]
  visited := [['a'], ['b']]
  skipped := []

/-- The text of `a`, put under `./c` and flattened again. -/
theorem flatten_flattened_sandwich :
    flatten sandwich.source hash ['a'] = .ok sandwichText ∧
    ¬ ['\r', '\n'] <:+: sandwichText.text ∧
    (Store.ofList [("./c".toList, sandwichText.text)]).get? "./c".toList
      = some sandwichText.text ∧
    (∀ line ∈ sandwichText.text.lfLines, ¬ hash.text <+: line) ∧
    ∃ again,
      flatten (Store.ofList [("./c".toList, sandwichText.text)]).source hash
        "./c".toList = .ok again ∧
      again.text = "x\nz\n\ny\n".toList ∧ again.visited = [['c']] := by
  have hw : (walk? sandwich.source.reader hash ['a']).map Walk.result
      = some (.ok sandwichText) :=
    map_walk?_of_answers sandwichAnswers [['a'], ['b']] (by cbv) rfl
  rw [walk?_eq_some_walk, Option.map_some, Option.some.injEq] at hw
  have hcr : ¬ ['\r', '\n'] <:+: sandwichText.text := by decide
  have hput : (Store.ofList [("./c".toList, sandwichText.text)]).get?
      "./c".toList = some sandwichText.text := by decide
  obtain ⟨hno, -, htwice⟩ :=
    flatten_flattened (.inl ⟨sandwich, rfl⟩) (f := sandwichText) hw
  obtain ⟨again, hf, ht, hv, -⟩ := htwice hcr _ _ hput
  exact ⟨hw, hcr, hput, hno, again, hf, ht, hv⟩

end IncludeFlattener
