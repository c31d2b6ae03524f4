/-
IncludeFlattener.Text — text as a list of characters, and the ways it is
cut into lines.

Every scanner of this library walks a list, so each has ordinary equation
lemmas and a statement about what a scanner does is an induction over the
text. `String` appears only where text enters or leaves the library.

Reading and writing lines are not inverse to each other: `splitLines`
forgets whether a line ended in LF or in CR LF and whether the last line
was ended at all, and `endLines` always writes LF. What survives is
`splitLines_endLines`: lines that hold no LF and do not end in CR are read
back as they were written.
-/
namespace IncludeFlattener

/-- A text is the list of its characters. -/
abbrev Text := List Char

namespace Text

/-! ## 1. Cutting into lines -/

/-- Puts one more symbol in front of the first line. -/
def extendFirst {α : Type} (c : α) : List (List α) → List (List α)
  | [] => [[c]]
  | line :: rest => (c :: line) :: rest

/-- The lines of a sequence in which `lf` ends a line and a `cr` directly
before it belongs to the line end. What follows the last `lf` is a line of
its own, unless it is empty, and keeps a `cr` at its end. -/
def splitLinesAt {α : Type} [DecidableEq α] (lf cr : α) :
    List α → List (List α)
  | [] => []
  | [c] => if c = lf then [[]] else [[c]]
  | c :: d :: rest =>
    if c = lf then [] :: splitLinesAt lf cr (d :: rest)
    else if c = cr ∧ d = lf then [] :: splitLinesAt lf cr rest
    else extendFirst c (splitLinesAt lf cr (d :: rest))

/-- The lines of a text: LF and CR LF end a line, nothing else does. -/
def splitLines (t : Text) : List Text := splitLinesAt '\n' '\r' t

/-- The text of whole lines, each ended by LF. -/
def endLines (lines : List Text) : Text := lines.flatMap (· ++ ['\n'])

/-- How many line ends a text holds. -/
def lineCount (t : Text) : Nat := t.count '\n'

/-! ## 2. Equations of the line cutter -/

section Equations

variable {α : Type} [DecidableEq α] {lf cr : α}

@[simp] theorem splitLinesAt_nil : splitLinesAt lf cr [] = [] := rfl

@[simp] theorem splitLinesAt_lf (rest : List α) :
    splitLinesAt lf cr (lf :: rest) = [] :: splitLinesAt lf cr rest := by
  cases rest <;> simp [splitLinesAt]

theorem splitLinesAt_cr_lf (h : cr ≠ lf) (rest : List α) :
    splitLinesAt lf cr (cr :: lf :: rest)
      = [] :: splitLinesAt lf cr rest := by
  simp [splitLinesAt, h]

/-- A symbol that is neither a line end nor the first half of one goes to
the front of the line that follows. -/
theorem splitLinesAt_cons {c : α} {rest : List α} (hc : c ≠ lf)
    (hcr : c = cr → rest.head? ≠ some lf) :
    splitLinesAt lf cr (c :: rest)
      = extendFirst c (splitLinesAt lf cr rest) := by
  cases rest with
  | nil => simp [splitLinesAt, hc, extendFirst]
  | cons d rest =>
    have hn : ¬(c = cr ∧ d = lf) := fun ⟨h1, h2⟩ => hcr h1 (by simp [h2])
    rw [splitLinesAt, if_neg hc, if_neg hn]

end Equations

/-! ## 3. Lines that are read back -/

@[simp] theorem endLines_nil : endLines [] = [] := rfl

@[simp] theorem endLines_cons (line : Text) (rest : List Text) :
    endLines (line :: rest) = line ++ '\n' :: endLines rest := by
  simp [endLines]

theorem endLines_append (xs ys : List Text) :
    endLines (xs ++ ys) = endLines xs ++ endLines ys := by
  simp [endLines]

/-- A line without LF that does not end in CR is cut off at the LF that
follows it. -/
theorem splitLines_line : ∀ (line rest : Text), '\n' ∉ line →
    line.getLast? ≠ some '\r' →
    splitLines (line ++ '\n' :: rest) = line :: splitLines rest
  | [], rest, _, _ => by simp [splitLines]
  | [c], rest, hlf, hcr => by
      have hc : c ≠ '\n' := fun h => hlf (by simp [h])
      have hr : c ≠ '\r' := fun h => hcr (by simp [h])
      rw [splitLines, List.cons_append,
        splitLinesAt_cons hc (fun h => absurd h hr)]
      simp [splitLines, extendFirst]
  | c :: d :: line, rest, hlf, hcr => by
      have hc : c ≠ '\n' := fun h => hlf (by simp [h])
      have hd : d ≠ '\n' := fun h => hlf (by simp [h])
      have ih := splitLines_line (d :: line) rest
        (fun h => hlf (List.mem_cons_of_mem c h)) (by simpa using hcr)
      rw [splitLines] at ih ⊢
      rw [List.cons_append, splitLinesAt_cons hc (by simp [hd]), ih]
      rfl

/-- Whole lines are read back, provided that none of them holds an LF or
ends in CR. -/
theorem splitLines_endLines : ∀ (lines : List Text),
    (∀ l ∈ lines, '\n' ∉ l ∧ l.getLast? ≠ some '\r') →
    splitLines (endLines lines) = lines
  | [], _ => rfl
  | line :: rest, h => by
      have hl := h line (by simp)
      rw [endLines_cons, splitLines_line line _ hl.1 hl.2,
        splitLines_endLines rest (fun l hm => h l (by simp [hm]))]

/-! ## 4. Beginnings -/

/-- What follows a leading `start`, if the text begins with it. -/
def after? : (start t : Text) → Option Text
  | [], t => some t
  | _ :: _, [] => none
  | x :: start, c :: t => if x = c then after? start t else none

theorem after?_eq_some_iff : ∀ {start t rest : Text},
    after? start t = some rest ↔ t = start ++ rest
  | [], t, rest => by simp [after?]
  | x :: start, [], rest => by simp [after?]
  | x :: start, c :: t, rest => by
      by_cases h : x = c
      · simp [after?, h, @after?_eq_some_iff start]
      · simp [after?, h, Ne.symm h]

theorem after?_eq_none_iff {start t : Text} :
    after? start t = none ↔ ¬ start <+: t := by
  constructor
  · rintro h ⟨rest, hr⟩
    rw [after?_eq_some_iff.2 hr.symm] at h
    cases h
  · intro h
    cases hr : after? start t with
    | none => rfl
    | some rest => exact absurd ⟨rest, (after?_eq_some_iff.1 hr).symm⟩ h

end Text

end IncludeFlattener
