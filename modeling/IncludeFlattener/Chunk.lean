/-
IncludeFlattener.Chunk — the flattened text in pieces, each with the file
and the line it came from.

A chunk is a run of whole lines of one file. Joining the chunks gives the
flattened text; `locate` goes the other way and finds the file and the line
behind a line of that text. `locate_append` says how the map of two lists
of chunks is put together, so that chunks may be added one by one.

While a file is scanned its next chunk is open: a `Run` of lines that
follow each other, starting at a known line. `Run.close` gives the chunk,
if the run has any line at all.
-/
import IncludeFlattener.Path
namespace IncludeFlattener

/-- A run of lines of one file. -/
structure Chunk where
  /-- The lines, each ended by LF. -/
  source : Text
  /-- The file that they came from. -/
  file : Path
  /-- How many lines of the file come before the first one. -/
  lineOffset : Nat
  deriving DecidableEq, Repr

namespace Chunk

/-! ## 1. Chunks and the joined text -/

/-- How many lines a chunk holds. -/
def lineCount (c : Chunk) : Nat := c.source.lineCount

/-- The text that the chunks make up. -/
def joined (chunks : List Chunk) : Text := chunks.flatMap source

/-- How many lines the chunks hold together. -/
def totalLines : List Chunk → Nat
  | [] => 0
  | c :: rest => c.lineCount + totalLines rest

/-- The file and the line behind line `n`, counted from 1, of the joined
text. The sum has no bound; `locateByCount?` adds up words. -/
def locate : List Chunk → Nat → Option (Path × Nat)
  | [], _ => none
  | c :: rest, n =>
    if n = 0 then none
    else if n ≤ c.lineCount then some (c.file, c.lineOffset + n)
    else locate rest (n - c.lineCount)

@[simp] theorem joined_append (xs ys : List Chunk) :
    joined (xs ++ ys) = joined xs ++ joined ys := by
  simp [joined]

@[simp] theorem locate_nil (n : Nat) : locate [] n = none := rfl

@[simp] theorem locate_zero : ∀ chunks : List Chunk, locate chunks 0 = none
  | [] => rfl
  | _ :: _ => by simp [locate]

/-- Line `n` of a chunk. -/
theorem locate_of_le {c : Chunk} {rest : List Chunk} {n : Nat}
    (h0 : 0 < n) (h : n ≤ c.lineCount) :
    locate (c :: rest) n = some (c.file, c.lineOffset + n) := by
  rw [locate, if_neg (by omega), if_pos h]

/-- A line behind a chunk is looked for in what follows. -/
theorem locate_of_lt {c : Chunk} {rest : List Chunk} {n : Nat}
    (h : c.lineCount < n) :
    locate (c :: rest) n = locate rest (n - c.lineCount) := by
  rw [locate, if_neg (by omega), if_neg (by omega)]

theorem totalLines_append : ∀ xs ys : List Chunk,
    totalLines (xs ++ ys) = totalLines xs + totalLines ys
  | [], ys => by simp [totalLines]
  | c :: xs, ys => by
      simp [totalLines, totalLines_append xs ys, Nat.add_assoc]

/-- The chunks hold as many lines as the text that they make up. -/
theorem lineCount_joined : ∀ chunks : List Chunk,
    Text.lineCount (joined chunks) = totalLines chunks
  | [] => rfl
  | c :: rest => by
      have ih := lineCount_joined rest
      simp only [joined, Text.lineCount, List.flatMap_cons,
        List.count_append] at ih ⊢
      rw [ih]
      rfl

/-- The first chunks answer for their own lines, the others for the lines
behind those. -/
theorem locate_append : ∀ (xs ys : List Chunk) (n : Nat), 0 < n →
    locate (xs ++ ys) n =
      if n ≤ totalLines xs then locate xs n
      else locate ys (n - totalLines xs)
  | [], ys, n, h => by simp [totalLines, show ¬ n = 0 by omega]
  | c :: xs, ys, n, h => by
      rw [List.cons_append, totalLines]
      by_cases h1 : n ≤ c.lineCount
      · rw [locate_of_le h h1, if_pos (by omega), locate_of_le h h1]
      · rw [locate_of_lt (by omega), locate_of_lt (by omega),
          locate_append xs ys _ (by omega)]
        by_cases h2 : n - c.lineCount ≤ totalLines xs
        · rw [if_pos h2, if_pos (by omega)]
        · rw [if_neg h2, if_neg (by omega), Nat.sub_sub]

/-- A line is found if and only if it is one of the lines of the text. -/
theorem locate_isSome_iff : ∀ (chunks : List Chunk) (n : Nat),
    (locate chunks n).isSome ↔ 0 < n ∧ n ≤ totalLines chunks
  | [], n => by simp [totalLines]; omega
  | c :: rest, n => by
      have ih := locate_isSome_iff rest (n - c.lineCount)
      by_cases h0 : n = 0
      · simp [h0]
      by_cases h1 : n ≤ c.lineCount
      · rw [locate_of_le (by omega) h1]
        simp [totalLines]
        omega
      · rw [locate_of_lt (by omega), ih, totalLines]
        omega

end Chunk

/-! ## 2. The open chunk of a file -/

/-- Lines that follow each other in a file, the first one at line `first`,
counted from 1. -/
structure Run where
  first : Nat
  lines : List Text
  deriving DecidableEq, Repr

namespace Run

/-- No line yet. -/
def empty : Run := ⟨1, []⟩

/-- The empty line that stands for an inlined directive at line `n`. -/
def standIn (n : Nat) : Run := ⟨n, [[]]⟩

/-- The run with one more line, which is line `n` of the file. -/
def push (r : Run) (n : Nat) (line : Text) : Run :=
  if r.lines = [] then ⟨n, [line]⟩ else ⟨r.first, r.lines ++ [line]⟩

/-- The chunk of a run of `file`: none, if there is no line. -/
def close (r : Run) (file : Path) : List Chunk :=
  if r.lines = [] then []
  else [⟨Text.endLines r.lines, file, r.first - 1⟩]

@[simp] theorem close_empty (file : Path) : empty.close file = [] := rfl

@[simp] theorem push_empty (n : Nat) (line : Text) :
    empty.push n line = ⟨n, [line]⟩ := rfl

/-- The text of a run is the text of its lines. -/
theorem joined_close (r : Run) (file : Path) :
    Chunk.joined (r.close file) = Text.endLines r.lines := by
  by_cases h : r.lines = []
  · simp [close, h, Chunk.joined]
  · simp [close, h, Chunk.joined]

end Run

end IncludeFlattener
