/-
IncludeFlattener.Proofs.Flattening.Verbatim — a text without directives is
copied as it is.

Its lines go into one run, which is closed behind them, so the flattened text
is made of the lines that the line cutter finds. What that does to a text is
said by `Text.endLines_splitLines`: a CR directly before an LF is lost, and a
last line that was not ended is ended. Every other character stays where it
is, whatever else may pass for a line end or for white space elsewhere.
-/
import IncludeFlattener.Proofs.Chunk.Position
import IncludeFlattener.Proofs.Flattening.Idempotence
import IncludeFlattener.Proofs.Text.Cutting
namespace IncludeFlattener

/-- The chunk of all lines of a text is there if the text has any character,
and starts with the first line. -/
theorem Run.close_splitLines (text : Text) (path : Path) :
    (⟨1, text.splitLines⟩ : Run).close path = if text = [] then []
      else [⟨text.crlfToLf ++ text.missingLf, path, 0⟩] := by
  by_cases h : text = []
  · rw [if_pos h, h]
    rfl
  · have hlines : text.splitLines ≠ [] := Text.splitLinesAt_ne_nil h
    simp only [Run.close, if_neg h, if_neg hlines, Text.endLines_splitLines,
      Nat.sub_self]

/-- **Text without directives is copied.** If no line of a file in memory
starts with the keyword, flattening its path succeeds, with an LF for every CR
LF of the file and one LF more behind a last line that had none. This is one
chunk, from the first line of the file on, unless the file is empty. -/
theorem flatten_verbatim {store : Store} {path : Path} {text : Text}
    (hs : store.get? path = some text) {keyword : Keyword}
    (hl : ∀ line ∈ text.splitLines, ¬ keyword.text <+: line) :
    ∃ f, flatten store.source keyword path = .ok f ∧
      f.text = text.crlfToLf ++ text.missingLf ∧
      f.chunks = (if text = [] then [] else [⟨f.text, path, 0⟩]) ∧
      f.visited = [Path.collapse path] ∧ f.skipped = [] := by
  have htext : Chunk.joined ((⟨1, text.splitLines⟩ : Run).close path)
      = text.crlfToLf ++ text.missingLf :=
    (Run.joined_close _ path).trans (Text.endLines_splitLines text)
  refine ⟨_, flatten_store_of_ordinary hs hl, htext, ?_, rfl, rfl⟩
  rw [Flattened.text, htext]
  exact Run.close_splitLines text path

/-- Lines with a CR at their end and others with symbols that end no line.
The keyword ends in CR, and is found across a line end and within a line. -/
def oddLines : Text :=
  ['#', '\r', '\n', 'a', '\r', '\r', '\n', '\x00', '\u0085', '\u2028', '#',
    '\r']

/-- Two CRs are left out, and one LF is added. -/
theorem flatten_verbatim_oddLines :
    (Store.ofList [(['a'], oddLines)]).get? ['a'] = some oddLines ∧
    (∀ line ∈ oddLines.splitLines, ¬ ['#', '\r'] <+: line) ∧
    ∃ f, flatten (Store.ofList [(['a'], oddLines)]).source
        ⟨['#', '\r'], by decide⟩ ['a'] = .ok f ∧
      f.text = ['#', '\n', 'a', '\r', '\n', '\x00', '\u0085', '\u2028', '#',
        '\r', '\n'] ∧
      f.chunks = [⟨f.text, ['a'], 0⟩] := by
  have hs : (Store.ofList [(['a'], oddLines)]).get? ['a'] = some oddLines := by
    decide
  have hl : ∀ line ∈ oddLines.splitLines, ¬ ['#', '\r'] <+: line := by decide
  obtain ⟨f, hf, ht, hc, -⟩ :=
    @flatten_verbatim _ _ _ hs ⟨['#', '\r'], by decide⟩ hl
  exact ⟨hs, hl, f, hf, ht.trans (by decide), hc.trans (if_neg (by decide))⟩

end IncludeFlattener
