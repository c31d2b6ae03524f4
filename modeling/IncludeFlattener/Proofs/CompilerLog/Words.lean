/-
IncludeFlattener.Proofs.CompilerLog.Words — a log is remapped with numbers
that fit a word.

`remap` adds up lines without bound. Where a line of a file is numbered by a
word, the sum that gives this number may not fit, and then the log has no
outcome at all. `remap?` says so: it goes through the log as `remap` does,
asks a `Lookup` for the lines, and has a value only if every answer has one.

A look-up that always answers gives the outcome of `remap`
(`remap?_unbounded`). `Chunk.locateByCount?` always answers where the numbers
of the lines of the files fit a word (`remap?_locateByCount?`).
-/
import IncludeFlattener.CompilerLog
import IncludeFlattener.Proofs.Chunk.Position
namespace IncludeFlattener.CompilerLog

open Chunk (FitsWord locateByCount?)

/-! ## 1. The passes -/

/-- A way to look up where a line stands, if it stands anywhere. There is no
answer where a number does not fit a word. -/
abbrev Lookup := Nat → Option (Option Origin)

/-- What a look-up answers for a reference. A number that cannot be read is
not looked up. -/
def Reference.answer? (r : Reference) (lookup : Lookup) :
    Option (Option Origin) :=
  match Text.Decimal.read? lineBound r.number with
  | none => some none
  | some n => lookup n

/-- What takes a reference's place, if there is an answer. -/
def Reference.remapped? (r : Reference) (lookup : Lookup) : Option Text :=
  (r.answer? lookup).map fun
    | some (file, line) =>
      r.label ++ file ++ '(' :: (Text.Decimal.write line ++ [')'])
    | none => r.text

/-- A text with the references of one dialect remapped, if there is an answer
for each of them; `atStart` tells whether it begins where a line begins. -/
def Dialect.remap? (d : Dialect) (lookup : Lookup) (atStart : Bool) :
    Text → Option Text
  | [] => some []
  | c :: rest =>
    match _h : if atStart then d.recognise (c :: rest) else none with
    | some (r, after) =>
      (r.remapped? lookup).bind fun place =>
        (d.remap? lookup false after).map (place ++ ·)
    | none => (d.remap? lookup (c = '\n') rest).map (c :: ·)
termination_by t => t.length
decreasing_by
  · split at _h
    · exact d.length_lt _h
    · cases _h
  · simp

/-- The log remapped, if there is an answer for each reference. -/
def remap? (lookup : Lookup) (log : Text) : Option Text :=
  (labelled.remap? lookup true log).bind (parenthesized.remap? lookup true)

namespace Dialect

variable (d : Dialect) (lookup : Lookup)

/-! ## 2. Equations of one pass -/

@[simp] theorem remap?_nil (atStart : Bool) :
    d.remap? lookup atStart [] = some [] := by
  rw [remap?]

theorem remap?_false (c : Char) (rest : Text) :
    d.remap? lookup false (c :: rest)
      = (d.remap? lookup (c = '\n') rest).map (c :: ·) := by
  rw [remap?]
  simp

theorem remap?_of_none {c : Char} {rest : Text}
    (h : d.recognise (c :: rest) = none) :
    d.remap? lookup true (c :: rest)
      = (d.remap? lookup (c = '\n') rest).map (c :: ·) := by
  rw [remap?]
  split
  · rename_i h'
    rw [if_pos rfl, h] at h'
    cases h'
  · rfl

theorem remap?_of_some {t rest : Text} {r : Reference}
    (h : d.recognise t = some (r, rest)) :
    d.remap? lookup true t = (r.remapped? lookup).bind fun place =>
      (d.remap? lookup false rest).map (place ++ ·) := by
  cases t with
  | nil => exact absurd (d.exact h).1.symm (by simp [(d.exact h).2])
  | cons c t =>
    rw [remap?]
    split
    · rename_i h'
      rw [if_pos rfl, h] at h'
      cases h'
      rfl
    · rename_i h'
      rw [if_pos rfl, h] at h'
      cases h'

/-- A text is gone through from its beginning: one character after another
in a line and where no reference begins, and otherwise a whole reference at
once, behind which the line goes on. -/
theorem scan_induct {motive : Bool → Text → Prop}
    (nil : ∀ atStart, motive atStart [])
    (inLine : ∀ c rest, motive (c = '\n') rest → motive false (c :: rest))
    (other : ∀ c rest, d.recognise (c :: rest) = none →
      motive (c = '\n') rest → motive true (c :: rest))
    (reference : ∀ t r rest, d.recognise t = some (r, rest) →
      motive false rest → motive true t) (atStart : Bool) (t : Text) :
    motive atStart t := by
  match t with
  | [] => exact nil atStart
  | c :: rest =>
    have ih := scan_induct nil inLine other reference (c = '\n') rest
    cases atStart with
    | false => exact inLine c rest ih
    | true =>
      cases hs : d.recognise (c :: rest) with
      | none => exact other c rest hs ih
      | some found =>
        obtain ⟨r, after⟩ := found
        have hlt := d.length_lt hs
        exact reference _ r after hs
          (scan_induct nil inLine other reference false after)
termination_by t.length
decreasing_by
  · simp
  · exact hlt

/-! ## 3. What a pass copies -/

/-- In the middle of a line all is copied up to the next LF. -/
theorem remap?_false_append (rest : Text) : ∀ {u : Text}, '\n' ∉ u →
    d.remap? lookup false (u ++ rest)
      = (d.remap? lookup false rest).map (u ++ ·)
  | [], _ => by simp
  | c :: u, h => by
      obtain ⟨hc, hu⟩ := not_or.1 (mt List.mem_cons.2 h)
      rw [List.cons_append, remap?_false, decide_eq_false (Ne.symm hc),
        remap?_false_append rest hu, Option.map_map]
      rfl

/-- Where no reference begins, it does not matter whether a line does. -/
theorem remap?_cons_append (c : Char) (u rest : Text)
    (hn : d.recognise (c :: u ++ rest) = none) (h : '\n' ∉ c :: u)
    (atStart : Bool) :
    d.remap? lookup atStart (c :: u ++ rest)
      = (d.remap? lookup false rest).map (c :: u ++ ·) := by
  rw [← remap?_false_append d lookup rest h]
  cases atStart with
  | false => rfl
  | true =>
    rw [List.cons_append] at hn ⊢
    rw [remap?_of_none d lookup hn, remap?_false]

/-- What comes out in the middle of a line begins as the text itself, up to
the next LF. -/
theorem exists_append_of_remap?_false : ∀ {u t v : Text},
    d.remap? lookup false t = some (u ++ v) → '\n' ∉ u →
      ∃ rest, t = u ++ rest
  | [], t, _, _, _ => ⟨t, rfl⟩
  | c :: u, [], v, h, _ => by
      rw [remap?_nil] at h
      cases h
  | c :: u, x :: t, v, h, hlf => by
      obtain ⟨hc, hu⟩ := not_or.1 (mt List.mem_cons.2 hlf)
      rw [remap?_false] at h
      obtain ⟨out, hout, ht⟩ := Option.map_eq_some_iff.1 h
      obtain ⟨rfl, rfl⟩ := List.cons.inj ht
      rw [decide_eq_false (Ne.symm hc)] at hout
      obtain ⟨rest, rfl⟩ := exists_append_of_remap?_false hout hu
      exact ⟨rest, rfl⟩

end Dialect

/-! ## 4. Answers to every question -/

/-- The look-up without words. -/
def Lookup.unbounded (chunks : List Chunk) : Lookup :=
  fun n => some (Chunk.locate chunks n)

section Answers

variable {chunks : List Chunk}

theorem Reference.remapped?_unbounded (r : Reference) :
    r.remapped? (.unbounded chunks) = some (r.remapped chunks) := by
  unfold remapped? answer? remapped target? Lookup.unbounded
  cases Text.Decimal.read? lineBound r.number with
  | none => rfl
  | some n =>
    rw [Option.bind_some, Option.map_some]
    rfl

theorem Dialect.remap?_unbounded (d : Dialect) (atStart : Bool) (t : Text) :
    d.remap? (.unbounded chunks) atStart t
      = some (d.remap chunks atStart t) := by
  induction atStart, t using d.scan_induct with
  | nil atStart => rw [remap?_nil, remap_nil]
  | inLine c rest ih =>
    rw [remap?_false, remap_false, ih, Option.map_some]
  | other c rest hn ih =>
    rw [remap?_of_none _ _ hn, remap_of_none _ _ hn, ih, Option.map_some]
  | reference t r rest hs ih =>
    rw [remap?_of_some _ _ hs, remap_of_some _ _ hs, ih,
      Reference.remapped?_unbounded]
    rfl

theorem Dialect.remap_cons_append (d : Dialect) (c : Char) (u rest : Text)
    (hn : d.recognise (c :: u ++ rest) = none) (h : '\n' ∉ c :: u)
    (atStart : Bool) :
    d.remap chunks atStart (c :: u ++ rest)
      = c :: u ++ d.remap chunks false rest := by
  have he := d.remap?_cons_append (.unbounded chunks) c u rest hn h atStart
  rw [remap?_unbounded, remap?_unbounded, Option.map_some] at he
  exact Option.some.inj he

theorem remap?_unbounded (log : Text) :
    remap? (.unbounded chunks) log = some (remap chunks log) := by
  rw [remap?, Dialect.remap?_unbounded, Option.bind_some,
    Dialect.remap?_unbounded]
  rfl

/-- Where the numbers of the lines of the files fit a word, counting on words
answers as counting without them. -/
theorem locateByCount?_eq_unbounded (hw : FitsWord chunks) :
    locateByCount? chunks = Lookup.unbounded chunks :=
  funext (Chunk.locateByCount?_eq hw)

/-- There, the log has an outcome, and it is the remapped log. -/
theorem remap?_locateByCount? (hw : FitsWord chunks) (log : Text) :
    remap? (locateByCount? chunks) log = some (remap chunks log) := by
  rw [locateByCount?_eq_unbounded hw, remap?_unbounded]

end Answers

end IncludeFlattener.CompilerLog
