/-
IncludeFlattener.Proofs.Flattening.Spelling — the spelling of the file at
the top makes no difference.

Below the top every path is a key, and a key has one spelling. Only the file
at the top is read and named as it is spelled by the caller. `Walk.respell`
writes a walk with other spellings of files: in what it names, and not in
its marks and targets, which are keys in either case. `Scans.respell` moves
a walk along such a change. It rests on two facts: lines of the file have
the same targets under both spellings (`Path.join_eq_join`), and a file that
is taken in keeps its name, for the key of the top is marked from the start.
-/
import IncludeFlattener.Proofs.Flattening.Agreement
import IncludeFlattener.Proofs.Flattening.Marks
import IncludeFlattener.Proofs.Path.Spelling
import IncludeFlattener.Source.Store
namespace IncludeFlattener

open Directive (Includes Names)

/-! ## 1. Other spellings -/

section Respell

variable (spell : Path → Path)

/-- The same lines of a file that is spelled otherwise. -/
def Chunk.respell (c : Chunk) : Chunk := { c with file := spell c.file }

/-- The same directive in a file that is spelled otherwise. The target is a
key and stays. -/
def SkippedInclude.respell (s : SkippedInclude) : SkippedInclude :=
  { s with file := spell s.file }

def Event.respell : Event → Event
  | .reading path => .reading (spell path)
  | .inlining target file n => .inlining target (spell file) n
  | .skipping target file n => .skipping target (spell file) n

def Failure.respell : Failure → Failure
  | .missing file => .missing (spell file)
  | .unreadable file reason => .unreadable (spell file) reason
  | .malformedDirective file n line => .malformedDirective (spell file) n line
  | .selfInclude file => .selfInclude (spell file)

/-- The same walk with files spelled otherwise. -/
def Walk.respell (w : Walk) : Walk where
  reads := w.reads.map spell
  events := w.events.map (·.respell spell)
  visited := w.visited
  skipped := w.skipped.map (·.respell spell)
  chunks := w.chunks.map (·.respell spell)
  failure := w.failure.map (·.respell spell)

def Flattened.respell (f : Flattened) : Flattened where
  chunks := f.chunks.map (·.respell spell)
  visited := f.visited
  skipped := f.skipped.map (·.respell spell)

end Respell

section Pieces

variable {spell : Path → Path} {file target : Path} {n : Nat} {run : Run}

theorem Run.map_respell_close (run : Run) (file : Path) :
    (run.close file).map (·.respell spell) = run.close (spell file) := by
  by_cases h : run.lines = []
  · simp [close, h]
  · simp [close, h, Chunk.respell]

theorem map_respell_openings (path : Path) (answer : Answer) :
    (openings path answer).map (·.respell spell)
      = openings (spell path) answer := by
  by_cases h : answer.opened
  · simp [openings, h, Event.respell]
  · simp [openings, h]

theorem Answer.map_respell_failure? (path : Path) (answer : Answer) :
    (answer.failure? path).map (·.respell spell)
      = answer.failure? (spell path) := by
  cases answer with
  | ok lines => rfl
  | error e => cases e <;> rfl

namespace Walk

theorem respell_append (a b : Walk) :
    (a ++ b).respell spell = a.respell spell ++ b.respell spell := by
  show Walk.mk _ _ _ _ _ _ = Walk.mk _ _ _ _ _ _
  simp [respell, Option.map_or]

theorem respell_closed :
    (closed run file).respell spell = closed run (spell file) := by
  simp [respell, Run.map_respell_close]

theorem respell_passed :
    (passed run file n target).respell spell
      = passed run (spell file) n target := by
  simp [respell, Run.map_respell_close, Event.respell,
    SkippedInclude.respell]

/-- A file that keeps its spelling is taken in as before. -/
theorem respell_entered (ht : spell target = target) (answer : Answer) :
    (entered run file n target answer).respell spell
      = entered run (spell file) n target answer := by
  simp [respell, Run.map_respell_close, map_respell_openings,
    Answer.map_respell_failure?, ht]
  rfl

theorem respell_begun (hc : Path.collapse (spell file) = Path.collapse file)
    (answer : Answer) :
    (begun file answer).respell spell = begun (spell file) answer := by
  simp [respell, map_respell_openings, Answer.map_respell_failure?, hc]

theorem result_respell (w : Walk) :
    (w.respell spell).result = match w.result with
      | .ok f => .ok (f.respell spell)
      | .error e => .error (e.respell spell) := by
  unfold result respell
  cases w.failure <;> rfl

end Walk

/-- The text of a file is the same, however the file is spelled. -/
theorem Flattened.text_respell (f : Flattened) :
    (f.respell spell).text = f.text := by
  simp [text, respell, Chunk.joined, List.flatMap_map, Chunk.respell]

end Pieces

/-! ## 2. Walks with other spellings -/

/-- No key changes that is not marked yet. -/
def KeepsUnmarked (spell : Path → Path) (visited : List Path) : Prop :=
  ∀ key, Path.collapse key = key → key ∉ visited → spell key = key

theorem KeepsUnmarked.mark {spell : Path → Path} {visited : List Path}
    (h : KeepsUnmarked spell visited) (more : List Path) :
    KeepsUnmarked spell (visited ++ more) := by
  intro key hk hm
  exact h key hk fun hv => hm (List.mem_append_left _ hv)

section Scan

variable {read : Path → Answer} {keyword : Keyword} {spell : Path → Path}

/-- A walk through the lines of a file goes the same way when the file is
spelled otherwise, if that changes no target of the lines, no key of a file,
and no key that is still to be marked. -/
theorem Scans.respell {file : Path} {n : Nat} {run : Run}
    {lines : List Text} {visited earlier : List Path} {w : Walk}
    (h : Scans (.steady read) keyword file n run lines visited earlier w)
    (hc : ∀ p, Path.collapse (spell p) = Path.collapse p)
    (hk : KeepsUnmarked spell visited)
    (hl : ∀ line ∈ lines, ∀ target, Includes keyword file line target →
      Includes keyword (spell file) line target)
    (earlier' : List Path) :
    Scans (.steady read) keyword (spell file) n run lines visited earlier'
      (w.respell spell) := by
  induction h generalizing earlier' with
  | nil =>
    rw [Walk.respell_closed]
    exact .nil
  | ordinary ho _ ih =>
    exact .ordinary ho (ih hk (List.forall_mem_cons.1 hl).2 earlier')
  | malformed hm => exact .malformed hm
  | selfInclude hi =>
    have hi' := (List.forall_mem_cons.1 hl).1 _ hi
    rw [← hc] at hi'
    exact .selfInclude hi'
  | skip hi hs hv _ ih =>
    obtain ⟨hline, hrest⟩ := List.forall_mem_cons.1 hl
    rw [Walk.respell_append, Walk.respell_passed]
    exact .skip (hline _ hi) (by rwa [hc]) hv (ih hk hrest earlier')
  | unread hi hs hv hr =>
    have hi' := (List.forall_mem_cons.1 hl).1 _ hi
    rw [Walk.respell_entered (hk _ hi.collapse_eq hv)]
    exact .unread hi' (by rwa [hc]) hv hr
  | innerFailed hi hs hv hr _ hf ih =>
    have hi' := (List.forall_mem_cons.1 hl).1 _ hi
    -- Inside of the target nothing is spelled otherwise.
    have ht := hk _ hi.collapse_eq hv
    rw [ht] at ih
    rw [Walk.respell_append, Walk.respell_entered ht]
    refine .innerFailed hi' (by rwa [hc]) hv hr
      (ih (hk.mark _) (fun _ _ _ hx => hx) _) ?_
    simpa [Walk.respell] using hf
  | inline hi hs hv hr _ hf _ ihi iha =>
    obtain ⟨hline, hrest⟩ := List.forall_mem_cons.1 hl
    have ht := hk _ hi.collapse_eq hv
    rw [ht] at ihi
    rw [Walk.respell_append, Walk.respell_append, Walk.respell_entered ht]
    refine .inline (hline _ hi) (by rwa [hc]) hv hr
      (ihi (hk.mark _) (fun _ _ _ hx => hx) _) ?_
      (iha ((hk.mark _).mark _) hrest _)
    simp [Walk.respell, hf]

end Scan

/-! ## 3. Two spellings of the file at the top -/

/-- The path `p` spelled as `q`, and every other path as it is. -/
def Path.respelled (p q file : Path) : Path := if file = p then q else file

section Top

variable {p q : Path}

theorem Path.respelled_self : respelled p q p = q := if_pos rfl

theorem Path.collapse_respelled (hc : collapse p = collapse q) (file : Path) :
    collapse (respelled p q file) = collapse file := by
  by_cases h : file = p
  · rw [h, respelled_self, hc]
  · rw [respelled, if_neg h]

/-- The key of the top is marked, so it is the only one that could change. -/
theorem keepsUnmarked_respelled :
    KeepsUnmarked (Path.respelled p q) [Path.collapse p] := by
  intro key hk hv
  refine if_neg ?_
  rintro rfl
  exact hv (by simp [hk])

/-- The walks from two spellings of one file differ in this spelling only. -/
theorem walk_respelled {source : Source} {keyword : Keyword}
    (hc : Path.collapse p = Path.collapse q)
    (hread : source.read p = source.read q)
    (hl : ∀ lines, source.read p = .ok lines → ∀ line ∈ lines, ∀ target,
      Includes keyword p line target → Includes keyword q line target) :
    walk source keyword q
      = (walk source keyword p).respell (Path.respelled p q) := by
  have hw : walk? source.reader keyword q
      = some ((walk source keyword p).respell (Path.respelled p q)) := by
    rw [walk?_eq_some_iff]
    obtain ⟨e, hr, hw⟩ | ⟨lines, inner, hr, hi, hw⟩ :=
      walk?_eq_some_iff.1 (walk?_eq_some_walk source keyword p)
    · refine .inl ⟨e, hread.symm.trans hr, ?_⟩
      rw [hw, Walk.respell_begun (Path.collapse_respelled hc p),
        Path.respelled_self]
    · have htargets := hl lines hr
      rw [← Path.respelled_self (p := p) (q := q)] at htargets
      have hi' := hi.respell (Path.collapse_respelled hc)
        keepsUnmarked_respelled htargets [q]
      rw [Path.respelled_self, hc] at hi'
      refine .inr ⟨lines, _, hread.symm.trans hr, hi', ?_⟩
      rw [hw, Walk.respell_append,
        Walk.respell_begun (Path.collapse_respelled hc p),
        Path.respelled_self]
  exact Option.some.inj ((walk?_eq_some_walk source keyword q).symm.trans hw)

/-- **The spelling of the top makes no difference.** Two paths that fold to
one key and end in a name give the same text of the same files, if they are
read alike and the directives of the file name no rooted path. In the account
only the name of the file differs, and so it does in a failure. -/
theorem flatten_respelled {source : Source} {keyword : Keyword}
    (hc : Path.collapse p = Path.collapse q) (hp : ':' ∉ p) (hq : ':' ∉ q)
    (hpn : Path.IsName (Path.fileName p))
    (hqn : Path.IsName (Path.fileName q))
    (hread : source.read p = source.read q)
    (hr : ∀ lines, source.read p = .ok lines → ∀ line ∈ lines, ∀ r,
      Names keyword line r → Path.Rootless r) :
    (∃ f g, flatten source keyword p = .ok f ∧
      flatten source keyword q = .ok g ∧
      g.text = f.text ∧ g.visited = f.visited ∧
      g.chunks = f.chunks.map (·.respell (Path.respelled p q)) ∧
      g.skipped = f.skipped.map (·.respell (Path.respelled p q))) ∨
    ∃ e, flatten source keyword p = .error e ∧
      flatten source keyword q
        = .error (e.respell (Path.respelled p q)) := by
  have hl : ∀ lines, source.read p = .ok lines → ∀ line ∈ lines,
      ∀ target, Includes keyword p line target →
        Includes keyword q line target := by
    rintro lines hlines line hm target ⟨r, hk, rfl⟩
    have hroot := hr lines hlines line hm r
      (Directive.classify_eq_directive_iff.1 hk)
    exact ⟨r, hk, (Path.join_eq_join hc hp hq hpn hqn hroot).symm⟩
  have hw := walk_respelled hc hread hl
  have hg : flatten source keyword q
      = ((walk source keyword p).respell (Path.respelled p q)).result :=
    congrArg Walk.result hw
  rw [Walk.result_respell] at hg
  cases hf : flatten source keyword p with
  | ok f =>
    rw [show (walk source keyword p).result = .ok f from hf] at hg
    exact .inl ⟨f, _, rfl, hg, f.text_respell, rfl, rfl, rfl⟩
  | error e =>
    rw [show (walk source keyword p).result = .error e from hf] at hg
    exact .inr ⟨e, rfl, hg⟩

end Top

/-! ## Two spellings of a file in a store -/

/-- What stands in the file under both spellings. -/
def dottedText : Text := "//#include \"b\"\n//#include \"b\"\n".toList

/-- The file `./a`, which is also found as `x/../a`, includes `b` twice, and
`b` includes `a`. -/
def dotted : Store :=
  .ofList [("./a".toList, dottedText), ("x/../a".toList, dottedText),
    (['b'], "//#include \"a\"\nz\n".toList)]

/-- What is read there. -/
def dottedAnswers : Path → Answer
  | ['.', '/', 'a'] => .ok dottedText.splitLines
  | ['b'] => .ok ["//#include \"a\"".toList, ['z']]
  | _ => .error .missing

/-- Only `b` is named in the file. -/
theorem rootless_of_names_dotted {line : Text} {r : Path}
    (hm : line ∈ dottedText.splitLines) (h : Names .default line r) :
    Path.Rootless r := by
  have hk := Directive.classify_eq_directive_iff.2 h
  have hline : line = "//#include \"b\"".toList := by
    have hl : dottedText.splitLines
        = List.replicate 2 "//#include \"b\"".toList := by cbv
    rw [hl] at hm
    exact (List.mem_replicate.1 hm).2
  have hb : Directive.classify .default "//#include \"b\"".toList
      = .directive ['b'] := by cbv
  rw [hline, hb] at hk
  cases hk
  exact ⟨by decide, by rintro c rest ⟨⟩; rfl⟩

/-- Both spellings give the same text; the line that was passed over is told
of the file as it was spelled. -/
theorem flatten_respelled_dotted :
    Path.collapse "./a".toList = Path.collapse "x/../a".toList ∧
    ':' ∉ "./a".toList ∧ ':' ∉ "x/../a".toList ∧
    (Path.fileName "./a".toList).IsName ∧
    (Path.fileName "x/../a".toList).IsName ∧
    dotted.source.read "./a".toList = dotted.source.read "x/../a".toList ∧
    (∀ lines, dotted.source.read "./a".toList = .ok lines →
      ∀ line ∈ lines, ∀ r, Names .default line r → Path.Rootless r) ∧
    ∃ g, flatten dotted.source .default "x/../a".toList = .ok g ∧
      g.text = ['z', '\n', '\n'] ∧ g.visited = [['a'], ['b']] ∧
      g.skipped = [⟨['b'], 1, ['a']⟩, ⟨"x/../a".toList, 2, ['b']⟩] := by
  have hc : Path.collapse "./a".toList = Path.collapse "x/../a".toList := by
    cbv
  have hp : ':' ∉ "./a".toList := by decide
  have hq : ':' ∉ "x/../a".toList := by decide
  have hpn : (Path.fileName "./a".toList).IsName := by decide
  have hqn : (Path.fileName "x/../a".toList).IsName := by decide
  have hread : dotted.source.read "./a".toList
      = .ok dottedText.splitLines := rfl
  have hsame : dotted.source.read "./a".toList
      = dotted.source.read "x/../a".toList := rfl
  have hr : ∀ lines, dotted.source.read "./a".toList = .ok lines →
      ∀ line ∈ lines, ∀ r, Names .default line r → Path.Rootless r := by
    intro lines hlines line hm r hn
    rw [hread] at hlines
    cases hlines
    exact rootless_of_names_dotted hm hn
  have hw : (walk? dotted.source.reader .default "./a".toList).map Walk.result
      = some (.ok ⟨[⟨['z', '\n'], ['b'], 1⟩, ⟨['\n'], "./a".toList, 0⟩],
        [['a'], ['b']], [⟨['b'], 1, ['a']⟩, ⟨"./a".toList, 2, ['b']⟩]⟩) :=
    map_walk?_of_answers dottedAnswers ["./a".toList, ['b']] (by cbv) rfl
  rw [walk?_eq_some_walk, Option.map_some, Option.some.injEq] at hw
  refine ⟨hc, hp, hq, hpn, hqn, hsame, hr, ?_⟩
  obtain ⟨f, g, hf, hg, ht, hv, -, hs⟩ | ⟨e, hf, -⟩ :=
    flatten_respelled hc hp hq hpn hqn hsame hr
  · cases hw.symm.trans hf
    exact ⟨g, hg, ht, hv, hs⟩
  · cases hw.symm.trans hf

end IncludeFlattener
