/-
IncludeFlattener.Proofs.Chunk.Origin — the lines of chunks with the places
they come from.

`origins` lists the file and the line behind each line of the joined text,
in order, and `locate_eq_getElem?` says that locating a line is looking it
up in that list. `placed` has the lines themselves beside their places.
Both are put together chunk by chunk, so what they hold for a walk can be
followed through its parts.

While a file is scanned, the lines in its open run are the ones directly
before the next line. That is `Run.Before`, which makes the places of a run
depend on the number of its lines only (`Run.placed`).
-/
import IncludeFlattener.Chunk
import Mathlib.Data.List.Nodup
namespace IncludeFlattener

/-! ## 1. Lines ended by LF alone -/

/-- The lines of a text in which only LF ends a line; a CR belongs to its
line. -/
def Text.lfLines (t : Text) : List Text := splitLinesAt '\n' '\n' t

/-- No line holds an LF. -/
def Text.LfFree (lines : List Text) : Prop := ∀ line ∈ lines, '\n' ∉ line

namespace Text

theorem lfLines_line {line : Text} (h : '\n' ∉ line) (rest : Text) :
    lfLines (line ++ '\n' :: rest) = line :: lfLines rest := by
  induction line with
  | nil => exact splitLinesAt_lf rest
  | cons c line ih =>
    obtain ⟨hc, hl⟩ := not_or.1 (mt List.mem_cons.2 h)
    have hc : c ≠ '\n' := Ne.symm hc
    have ih := ih hl
    rw [lfLines] at ih ⊢
    rw [List.cons_append, splitLinesAt_cons hc (fun he => absurd he hc), ih]
    rfl

theorem lfLines_endLines_append {lines : List Text} (h : LfFree lines)
    (rest : Text) :
    lfLines (endLines lines ++ rest) = lines ++ lfLines rest := by
  induction lines with
  | nil => simp
  | cons line lines ih =>
    obtain ⟨hl, h⟩ := List.forall_mem_cons.1 h
    rw [endLines_cons, List.append_assoc, List.cons_append,
      lfLines_line hl, ih h, List.cons_append]

theorem lfLines_endLines {lines : List Text} (h : LfFree lines) :
    lfLines (endLines lines) = lines := by
  simpa [lfLines] using lfLines_endLines_append h []

theorem lineCount_endLines {lines : List Text} (h : LfFree lines) :
    lineCount (endLines lines) = lines.length := by
  induction lines with
  | nil => rfl
  | cons line lines ih =>
    obtain ⟨hl, h⟩ := List.forall_mem_cons.1 h
    have ih := ih h
    rw [lineCount] at ih ⊢
    rw [endLines_cons, List.count_append, List.count_cons_self,
      List.count_eq_zero.2 hl, ih, List.length_cons]
    omega

end Text

/-! ## 2. Places -/

/-- A file and a line in it, counted from 1. -/
abbrev Origin := Path × Nat

/-- The places of `k` lines of a file, from line `n` on. -/
def places (file : Path) (n k : Nat) : List Origin :=
  (List.range' n k).map (file, ·)

section Places

variable (file : Path) (n k m : Nat)

@[simp] theorem places_zero : places file n 0 = [] := rfl

@[simp] theorem places_one : places file n 1 = [(file, n)] := rfl

theorem places_succ :
    places file n (k + 1) = (file, n) :: places file (n + 1) k := by
  simp [places, List.range'_succ]

theorem places_append :
    places file n k ++ places file (n + k) m = places file n (k + m) := by
  rw [places, places, places, ← List.map_append, List.range'_append_1]

@[simp] theorem length_places : (places file n k).length = k := by
  simp [places]

theorem nodup_places : (places file n k).Nodup := by
  refine List.Nodup.map ?_ (List.nodup_range' 1)
  intro i j h
  exact (Prod.mk.inj h).2

/-- Along the lines of a file the numbers go up. -/
theorem pairwise_places : (places file n k).Pairwise (·.2 < ·.2) :=
  List.pairwise_map.2 (List.pairwise_lt_range' 1)

variable {file n k}

theorem mem_places {o : Origin} :
    o ∈ places file n k ↔ o.1 = file ∧ n ≤ o.2 ∧ o.2 < n + k := by
  obtain ⟨f, l⟩ := o
  simp only [places, List.mem_map, List.mem_range'_1, Prod.mk.injEq]
  constructor
  · rintro ⟨i, hi, rfl, rfl⟩
    exact ⟨rfl, hi⟩
  · rintro ⟨rfl, hl⟩
    exact ⟨l, hl, rfl, rfl⟩

theorem getElem?_places {i : Nat} (h : i < k) :
    (places file n k)[i]? = some (file, n + i) := by
  simp [places, List.getElem?_range' h]

end Places

/-! ## 3. The lines of chunks -/

namespace Chunk

/-- A chunk is made of whole lines. -/
def Whole (c : Chunk) : Prop :=
  ∃ lines, c.source = Text.endLines lines ∧ Text.LfFree lines

/-- The place behind each line of the joined text. -/
def origins (chunks : List Chunk) : List Origin :=
  chunks.flatMap fun c => places c.file (c.lineOffset + 1) c.lineCount

/-- Each line of the joined text, beside the place that it comes from. -/
def placed (chunks : List Chunk) : List (Origin × Text) :=
  chunks.flatMap fun c =>
    (places c.file (c.lineOffset + 1) c.lineCount).zip c.source.lfLines

@[simp] theorem origins_nil : origins [] = [] := rfl

@[simp] theorem placed_nil : placed [] = [] := rfl

@[simp] theorem origins_append (xs ys : List Chunk) :
    origins (xs ++ ys) = origins xs ++ origins ys := by
  simp [origins]

@[simp] theorem placed_append (xs ys : List Chunk) :
    placed (xs ++ ys) = placed xs ++ placed ys := by
  simp [placed]

theorem length_origins (chunks : List Chunk) :
    (origins chunks).length = totalLines chunks := by
  induction chunks with
  | nil => rfl
  | cons c rest ih =>
    rw [origins] at ih ⊢
    rw [List.flatMap_cons, List.length_append, length_places, ih, totalLines]

/-- To locate a line is to look it up in the list of places. -/
theorem locate_eq_getElem? (chunks : List Chunk) {n : Nat} (h0 : 0 < n) :
    locate chunks n = (origins chunks)[n - 1]? := by
  induction chunks generalizing n with
  | nil => simp
  | cons c rest ih =>
    rw [origins, List.flatMap_cons]
    by_cases hn : n ≤ c.lineCount
    · rw [locate_of_le h0 hn, List.getElem?_append_left (by simp; omega),
        getElem?_places (by omega)]
      congr 2
      omega
    · rw [locate_of_lt (by omega), ih (by omega),
        List.getElem?_append_right (by simp; omega), length_places, origins]
      congr 1
      omega

theorem Whole.lineCount_eq {c : Chunk} (h : c.Whole) :
    c.lineCount = c.source.lfLines.length := by
  obtain ⟨lines, hs, hl⟩ := h
  rw [lineCount, hs, Text.lineCount_endLines hl, Text.lfLines_endLines hl]

theorem map_fst_placed {chunks : List Chunk} (h : ∀ c ∈ chunks, c.Whole) :
    (placed chunks).map Prod.fst = origins chunks := by
  induction chunks with
  | nil => rfl
  | cons c rest ih =>
    obtain ⟨hc, h⟩ := List.forall_mem_cons.1 h
    have ih := ih h
    rw [placed, origins] at ih ⊢
    rw [List.flatMap_cons, List.flatMap_cons, List.map_append, ih,
      List.map_fst_zip (by simp [hc.lineCount_eq])]

theorem map_snd_placed {chunks : List Chunk} (h : ∀ c ∈ chunks, c.Whole) :
    (placed chunks).map Prod.snd = (joined chunks).lfLines := by
  induction chunks with
  | nil => rfl
  | cons c rest ih =>
    obtain ⟨hc, h⟩ := List.forall_mem_cons.1 h
    have ih := ih h
    have hcount := hc.lineCount_eq
    obtain ⟨lines, hs, hl⟩ := hc
    rw [placed, joined] at ih ⊢
    rw [List.flatMap_cons, List.flatMap_cons, List.map_append, ih,
      List.map_snd_zip (by simp [hcount]), hs, Text.lfLines_endLines hl,
      Text.lfLines_endLines_append hl]

end Chunk

/-! ## 4. The open run -/

namespace Run

/-- The lines of the run are the ones directly before line `n`. -/
structure Before (r : Run) (n : Nat) : Prop where
  pos : 0 < n
  first_pos : r.lines ≠ [] → 0 < r.first
  first_add : r.lines ≠ [] → r.first + r.lines.length = n
  lfFree : Text.LfFree r.lines

/-- The lines of a run that lies before line `n`, beside their places. -/
def placed (r : Run) (file : Path) (n : Nat) : List (Origin × Text) :=
  (places file (n - r.lines.length) r.lines.length).zip r.lines

variable {r : Run} {file : Path} {n : Nat} {line : Text}

theorem Before.length_le (h : r.Before n) : r.lines.length ≤ n := by
  by_cases hr : r.lines = []
  · simp [hr]
  · have := h.first_add hr
    omega

theorem before_empty (h : 0 < n) : empty.Before n :=
  ⟨h, by simp [empty], by simp [empty], by simp [empty, Text.LfFree]⟩

theorem before_standIn (h : 0 < n) : (standIn n).Before (n + 1) :=
  ⟨by omega, fun _ => h, fun _ => rfl, by simp [standIn, Text.LfFree]⟩

theorem lines_push (r : Run) (n : Nat) (line : Text) :
    (r.push n line).lines = r.lines ++ [line] := by
  unfold push
  split
  · rename_i h
    simp [h]
  · rfl

theorem Before.push (h : r.Before n) (hl : '\n' ∉ line) :
    (r.push n line).Before (n + 1) := by
  refine ⟨by omega, fun _ => ?_, fun _ => ?_, ?_⟩
  · unfold Run.push
    split
    · exact h.pos
    · rename_i hr
      exact h.first_pos hr
  · rw [lines_push]
    unfold Run.push
    split
    · rename_i hr
      simp [hr]
    · rename_i hr
      have := h.first_add hr
      simp
      omega
  · rw [lines_push]
    intro l hm
    rcases List.mem_append.1 hm with hm | hm
    · exact h.lfFree l hm
    · rw [List.mem_singleton.1 hm]
      exact hl

@[simp] theorem placed_empty : empty.placed file n = [] := rfl

@[simp] theorem placed_standIn :
    (standIn n).placed file (n + 1) = [((file, n), [])] := by
  simp [placed, standIn]

/-- A line that is pushed stands behind the lines of the run. -/
theorem placed_push (h : r.lines.length ≤ n) :
    (r.push n line).placed file (n + 1)
      = r.placed file n ++ [((file, n), line)] := by
  have hp := places_append file (n - r.lines.length) r.lines.length 1
  rw [Nat.sub_add_cancel h] at hp
  rw [placed, lines_push, List.length_append, List.length_singleton,
    Nat.add_sub_add_right, ← hp, List.zip_append (by simp)]
  rfl

theorem map_fst_placed (r : Run) (file : Path) (n : Nat) :
    (r.placed file n).map Prod.fst
      = places file (n - r.lines.length) r.lines.length :=
  List.map_fst_zip (by simp)

theorem close_eq_singleton (file : Path) (h : r.Before n)
    (hr : r.lines ≠ []) :
    r.close file = [⟨Text.endLines r.lines, file, r.first - 1⟩] ∧
      r.first - 1 + 1 = n - r.lines.length := by
  have h1 := h.first_pos hr
  have h2 := h.first_add hr
  exact ⟨by rw [close, if_neg hr], by omega⟩

/-- Closing a run that lies before line `n` keeps the places of its
lines. -/
theorem placed_close (h : r.Before n) :
    Chunk.placed (r.close file) = r.placed file n := by
  by_cases hr : r.lines = []
  · simp [close, placed, hr]
  · obtain ⟨hc, hn⟩ := close_eq_singleton file h hr
    rw [hc, Chunk.placed, List.flatMap_singleton, Chunk.lineCount, hn,
      Text.lineCount_endLines h.lfFree, Text.lfLines_endLines h.lfFree, placed]

theorem whole_of_mem_close (h : r.Before n) : ∀ c ∈ r.close file,
    c.Whole := by
  intro c hm
  by_cases hr : r.lines = []
  · simp [close, hr] at hm
  · rw [(close_eq_singleton file h hr).1, List.mem_singleton] at hm
    exact ⟨r.lines, by rw [hm], h.lfFree⟩

theorem origins_close (h : r.Before n) :
    Chunk.origins (r.close file)
      = places file (n - r.lines.length) r.lines.length := by
  rw [← Chunk.map_fst_placed (whole_of_mem_close h), placed_close h,
    map_fst_placed]

end Run

end IncludeFlattener
