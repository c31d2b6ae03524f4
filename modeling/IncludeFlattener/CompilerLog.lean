/-
IncludeFlattener.CompilerLog — a compiler's log in terms of the files.

A compiler that was given the flattened text counts its lines; `remap`
puts the file and its line in the place of each reference that can be
located, and copies everything else. References are looked for at the
beginning of the log and after each LF, first those that begin with a word
and then, in the text that comes out, those that are numbers alone.

A number names a line only if it is written in ASCII digits and fits a
machine word; otherwise, and where there is no such line, the reference
stays as it is. The line that is found is numbered without bound here; what
becomes of a log where that number does not fit a word is a matter of
`remap?`.
-/
import IncludeFlattener.Chunk
import IncludeFlattener.CompilerLog.Dialect
import IncludeFlattener.Text.Decimal
namespace IncludeFlattener.CompilerLog

/-- Numbers of lines fit a word of 64 bits, so they are below this bound. -/
def lineBound : Nat := UInt64.size

/-- The file and line that a reference is to. -/
def Reference.target? (r : Reference) (chunks : List Chunk) :
    Option (Path × Nat) :=
  (Text.Decimal.read? lineBound r.number).bind (Chunk.locate chunks)

/-- What takes a reference's place. -/
def Reference.remapped (r : Reference) (chunks : List Chunk) : Text :=
  match r.target? chunks with
  | some (file, line) =>
    r.label ++ file ++ '(' :: (Text.Decimal.write line ++ [')'])
  | none => r.text

/-- A text with the references of one dialect remapped; `atStart` tells
whether it begins where a line begins. -/
def Dialect.remap (d : Dialect) (chunks : List Chunk) (atStart : Bool) :
    Text → Text
  | [] => []
  | c :: rest =>
    match _h : if atStart then d.recognise (c :: rest) else none with
    | some (r, after) => r.remapped chunks ++ d.remap chunks false after
    | none => c :: d.remap chunks (c = '\n') rest
termination_by t => t.length
decreasing_by
  · split at _h
    · exact d.length_lt _h
    · cases _h
  · simp

/-- The log with its references to lines of the flattened text replaced by
files and their lines. -/
def remap (chunks : List Chunk) (log : Text) : Text :=
  parenthesized.remap chunks true (labelled.remap chunks true log)

/-! ## Equations of one pass -/

section Equations

variable (d : Dialect) (chunks : List Chunk)

@[simp] theorem Dialect.remap_nil (atStart : Bool) :
    d.remap chunks atStart [] = [] := by
  rw [Dialect.remap]

theorem Dialect.remap_false (c : Char) (rest : Text) :
    d.remap chunks false (c :: rest)
      = c :: d.remap chunks (c = '\n') rest := by
  rw [Dialect.remap]
  simp

theorem Dialect.remap_of_none {c : Char} {rest : Text}
    (h : d.recognise (c :: rest) = none) :
    d.remap chunks true (c :: rest)
      = c :: d.remap chunks (c = '\n') rest := by
  rw [Dialect.remap]
  split
  · rename_i h'
    rw [if_pos rfl, h] at h'
    cases h'
  · rfl

theorem Dialect.remap_of_some {t rest : Text} {r : Reference}
    (h : d.recognise t = some (r, rest)) :
    d.remap chunks true t = r.remapped chunks ++ d.remap chunks false rest := by
  cases t with
  | nil => exact absurd (d.exact h).1.symm (by simp [(d.exact h).2])
  | cons c t =>
    rw [Dialect.remap]
    split
    · rename_i h'
      rw [if_pos rfl, h] at h'
      cases h'
      rfl
    · rename_i h'
      rw [if_pos rfl, h] at h'
      cases h'

end Equations

end IncludeFlattener.CompilerLog
