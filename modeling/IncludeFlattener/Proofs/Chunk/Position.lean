/-
IncludeFlattener.Proofs.Chunk.Position — where a line of the joined text
stands in the chunks.

There are two ways to read a list of chunks: as one text that is cut into
lines, and as a row of line counts that are added up. Nothing is asked of the
chunks but that none of them ends in the middle of a line; files and offsets
are any, and a chunk may have no line at all. Then

* what is cut out of the joined text is what is cut out of its chunks
  (`Text.splitLinesAt_append_of_ended`), whether a CR before an LF belongs to
  the line end or to the line;
* every line of the text is one line of one chunk (`LineOf`), and no other;
* `locate` finds that line.

The counts may also be added up from the first chunk on and compared with the
line that is looked for, as is done on machine words. `search?` does this,
and has no value where a difference would go below zero or a sum would not
fit a word. The count before a chunk that is reached is less than the line,
so no difference does (`search?_eq`).
-/
import IncludeFlattener.Proofs.Chunk.Origin
namespace IncludeFlattener

/-! ## 1. Texts of whole lines -/

namespace Text

section Cutter

variable {α : Type} [DecidableEq α] {lf cr : α}

omit [DecidableEq α] in
/-- What stands behind the first symbol ends where the whole ends. -/
theorem ended_tail {c : α} {t : List α}
    (h : c :: t = [] ∨ (c :: t).getLast? = some lf) :
    t = [] ∨ t.getLast? = some lf := by
  have h := h.resolve_left (List.cons_ne_nil c t)
  cases t with
  | nil => exact .inl rfl
  | cons d t => exact .inr (by simpa using h)

theorem splitLinesAt_ne_nil {t : List α} (h : t ≠ []) :
    splitLinesAt lf cr t ≠ [] := by
  fun_induction splitLinesAt lf cr t with
  | case1 => exact absurd rfl h
  | case2 => simp
  | case3 => simp
  | case4 => simp
  | case5 => simp
  | case6 c d rest => cases splitLinesAt lf cr (d :: rest) <;> simp [extendFirst]

omit [DecidableEq α] in
theorem extendFirst_append (c : α) {xs : List (List α)} (ys : List (List α))
    (h : xs ≠ []) : extendFirst c (xs ++ ys) = extendFirst c xs ++ ys := by
  cases xs with
  | nil => exact absurd rfl h
  | cons line rest => rfl

omit [DecidableEq α] in
theorem length_extendFirst (c : α) {xs : List (List α)} (h : xs ≠ []) :
    (extendFirst c xs).length = xs.length := by
  cases xs with
  | nil => exact absurd rfl h
  | cons line rest => rfl

/-- A text that ends in a line end is cut apart from what follows it. -/
theorem splitLinesAt_append_of_ended {t : List α}
    (h : t = [] ∨ t.getLast? = some lf) (rest : List α) :
    splitLinesAt lf cr (t ++ rest)
      = splitLinesAt lf cr t ++ splitLinesAt lf cr rest := by
  fun_induction splitLinesAt lf cr t with
  | case1 => simp
  | case2 => simp
  | case3 c hc => simp [hc] at h
  | case4 d t ih =>
    have ih := ih (ended_tail h)
    rw [List.cons_append, splitLinesAt_lf, ih, List.cons_append]
  | case5 c d t hc hcr ih =>
    obtain ⟨rfl, rfl⟩ := hcr
    have ih := ih (ended_tail (ended_tail h))
    rw [List.cons_append, List.cons_append, splitLinesAt_cr_lf hc, ih,
      List.cons_append]
  | case6 c d t hc hcr ih =>
    have ih := ih (ended_tail h)
    rw [List.cons_append, splitLinesAt_cons hc (by simpa using hcr), ih,
      extendFirst_append c _ (splitLinesAt_ne_nil (by simp))]

/-- A text that ends in a line end has as many lines as line ends. -/
theorem length_splitLinesAt_of_ended {t : List α}
    (h : t = [] ∨ t.getLast? = some lf) :
    (splitLinesAt lf cr t).length = t.count lf := by
  fun_induction splitLinesAt lf cr t with
  | case1 => rfl
  | case2 => simp
  | case3 c hc => simp [hc] at h
  | case4 d t ih =>
    have ih := ih (ended_tail h)
    rw [List.length_cons, ih, List.count_cons_self]
  | case5 c d t hc hcr ih =>
    obtain ⟨rfl, rfl⟩ := hcr
    have ih := ih (ended_tail (ended_tail h))
    rw [List.length_cons, ih, List.count_cons_of_ne hc,
      List.count_cons_self]
  | case6 c d t hc _ ih =>
    have ih := ih (ended_tail h)
    rw [length_extendFirst c (splitLinesAt_ne_nil (by simp)), ih,
      List.count_cons_of_ne hc]

end Cutter

end Text

namespace Chunk

/-- No chunk ends in the middle of a line. -/
def Ended (chunks : List Chunk) : Prop :=
  ∀ c ∈ chunks, c.source = [] ∨ c.source.getLast? = some '\n'

instance (chunks : List Chunk) : Decidable (Ended chunks) :=
  inferInstanceAs (Decidable (∀ c ∈ chunks, _))

theorem Ended.of_cons {c : Chunk} {rest : List Chunk}
    (h : Ended (c :: rest)) :
    (c.source = [] ∨ c.source.getLast? = some '\n') ∧ Ended rest :=
  List.forall_mem_cons.1 h

/-- The lines of the joined text are those of the first chunk and then those
of the others. -/
theorem splitLinesAt_joined_cons {c : Chunk} {rest : List Chunk}
    (h : Ended (c :: rest)) (cr : Char) :
    Text.splitLinesAt '\n' cr (joined (c :: rest))
      = Text.splitLinesAt '\n' cr c.source
        ++ Text.splitLinesAt '\n' cr (joined rest) :=
  Text.splitLinesAt_append_of_ended h.of_cons.1 _

theorem length_splitLinesAt_joined {chunks : List Chunk} (h : Ended chunks)
    (cr : Char) :
    (Text.splitLinesAt '\n' cr (joined chunks)).length
      = totalLines chunks := by
  induction chunks with
  | nil => rfl
  | cons c rest ih =>
    rw [splitLinesAt_joined_cons h, List.length_append, ih h.of_cons.2,
      Text.length_splitLinesAt_of_ended h.of_cons.1]
    rfl

/-! ## 2. The line behind a line -/

/-- Line `n` of the joined text is line `k` of the chunk `c`, which stands at
index `i`: so many lines are in the chunks before it. -/
structure LineOf (chunks : List Chunk) (n i k : Nat) (c : Chunk) :
    Prop where
  getElem?_eq : chunks[i]? = some c
  pos : 1 ≤ k
  le_lineCount : k ≤ c.lineCount
  eq_add : n = k + totalLines (chunks.take i)

section Lines

variable {c d : Chunk} {rest chunks : List Chunk} {n i k : Nat}

theorem lineOf_cons_zero :
    LineOf (c :: rest) n 0 k d ↔ c = d ∧ n = k ∧ 1 ≤ k ∧ k ≤ d.lineCount := by
  constructor
  · rintro ⟨hget, hpos, hle, heq⟩
    exact ⟨by simpa using hget, by simpa [totalLines] using heq, hpos, hle⟩
  · rintro ⟨rfl, rfl, hpos, hle⟩
    exact ⟨by simp, hpos, hle, by simp [totalLines]⟩

theorem lineOf_cons_succ :
    LineOf (c :: rest) n (i + 1) k d ↔
      c.lineCount < n ∧ LineOf rest (n - c.lineCount) i k d := by
  constructor
  · rintro ⟨hget, hpos, hle, heq⟩
    rw [List.take_succ_cons, totalLines] at heq
    exact ⟨by omega, by simpa using hget, hpos, hle, by omega⟩
  · rintro ⟨hn, hget, hpos, hle, heq⟩
    refine ⟨by simpa using hget, hpos, hle, ?_⟩
    rw [List.take_succ_cons, totalLines]
    omega

/-- Each of the lines of the text is a line of a chunk. -/
theorem exists_lineOf (h1 : 1 ≤ n) (hn : n ≤ totalLines chunks) :
    ∃ i k c, LineOf chunks n i k c := by
  induction chunks generalizing n with
  | nil =>
    rw [totalLines] at hn
    omega
  | cons c rest ih =>
    rw [totalLines] at hn
    by_cases hc : n ≤ c.lineCount
    · exact ⟨0, n, c, lineOf_cons_zero.2 ⟨rfl, rfl, h1, hc⟩⟩
    · obtain ⟨i, k, d, h⟩ := @ih (n - c.lineCount) (by omega) (by omega)
      exact ⟨i + 1, k, d, lineOf_cons_succ.2 ⟨by omega, h⟩⟩

/-- It is a line of no other chunk, and no other line. -/
theorem LineOf.unique {i' k' : Nat} {c' : Chunk}
    (h : LineOf chunks n i k c) (h' : LineOf chunks n i' k' c') :
    i' = i ∧ k' = k := by
  induction chunks generalizing n i i' with
  | nil => cases h.getElem?_eq
  | cons d rest ih =>
    cases i with
    | zero =>
      obtain ⟨rfl, rfl, -, hle⟩ := lineOf_cons_zero.1 h
      cases i' with
      | zero => exact ⟨rfl, (lineOf_cons_zero.1 h').2.1.symm⟩
      | succ i' => exact absurd (lineOf_cons_succ.1 h').1 (by omega)
    | succ i =>
      obtain ⟨hlt, h⟩ := lineOf_cons_succ.1 h
      cases i' with
      | zero =>
        obtain ⟨rfl, rfl, -, hle⟩ := lineOf_cons_zero.1 h'
        omega
      | succ i' =>
        obtain ⟨hi, hk⟩ := ih h (lineOf_cons_succ.1 h').2
        exact ⟨congrArg (· + 1) hi, hk⟩

theorem LineOf.locate_eq (h : LineOf chunks n i k c) :
    locate chunks n = some (c.file, c.lineOffset + k) := by
  induction chunks generalizing n i with
  | nil => cases h.getElem?_eq
  | cons d rest ih =>
    cases i with
    | zero =>
      obtain ⟨rfl, rfl, hpos, hle⟩ := lineOf_cons_zero.1 h
      exact locate_of_le hpos hle
    | succ i =>
      obtain ⟨hlt, h⟩ := lineOf_cons_succ.1 h
      rw [locate_of_lt hlt, ih h]

/-- The two lines read the same. -/
theorem LineOf.exists_line (h : LineOf chunks n i k c) (he : Ended chunks)
    (cr : Char) :
    ∃ line, (Text.splitLinesAt '\n' cr (joined chunks))[n - 1]? = some line ∧
      (Text.splitLinesAt '\n' cr c.source)[k - 1]? = some line := by
  induction chunks generalizing n i with
  | nil => cases h.getElem?_eq
  | cons d rest ih =>
    have hlen : (Text.splitLinesAt '\n' cr d.source).length = d.lineCount :=
      Text.length_splitLinesAt_of_ended he.of_cons.1
    rw [splitLinesAt_joined_cons he]
    cases i with
    | zero =>
      obtain ⟨rfl, rfl, hpos, hle⟩ := lineOf_cons_zero.1 h
      have hlt : n - 1 < (Text.splitLinesAt '\n' cr d.source).length := by
        omega
      exact ⟨_, by rw [List.getElem?_append_left hlt,
        List.getElem?_eq_getElem hlt], List.getElem?_eq_getElem hlt⟩
    | succ i =>
      obtain ⟨hlt, h⟩ := lineOf_cons_succ.1 h
      obtain ⟨line, hjoined, hsource⟩ := ih h he.of_cons.2
      refine ⟨line, ?_, hsource⟩
      rw [List.getElem?_append_right (by omega), hlen, ← hjoined]
      congr 1
      omega

end Lines

/-! ## 3. Counting on words -/

/-- A difference of words. It does not go below zero. -/
def wordSub? (a b : Nat) : Option Nat := if b ≤ a then some (a - b) else none

/-- A sum of words. It fits a word. -/
def wordAdd? (a b : Nat) : Option Nat :=
  if a + b < UInt64.size then some (a + b) else none

/-- Looks for line `n` in the chunks of which the first one begins with line
`first`. The line ends of texts can be counted in a word, so the sums of the
counts are not watched. -/
def search? (n first : Nat) : List Chunk → Option (Option Origin)
  | [] => some none
  | c :: rest =>
    if n < first + c.lineCount then do
      let before ← wordSub? n first
      let line ← wordAdd? c.lineOffset before
      let line ← wordAdd? line 1
      return some (c.file, line)
    else search? n (first + c.lineCount) rest

/-- The file and the line behind line `n`, by counting the lines of the
chunks from the first one on. -/
def locateByCount? (chunks : List Chunk) (n : Nat) : Option (Option Origin) :=
  if n = 0 then some none else search? n 1 chunks

/-- The numbers of the lines of the files fit a word. -/
def FitsWord (chunks : List Chunk) : Prop :=
  ∀ c ∈ chunks, c.lineOffset + c.lineCount < UInt64.size

instance (chunks : List Chunk) : Decidable (FitsWord chunks) :=
  inferInstanceAs (Decidable (∀ c ∈ chunks, _))

/-- Where the first chunk does not begin behind the line that is looked for,
counting goes on until the line is located. -/
theorem search?_eq {chunks : List Chunk} (hw : FitsWord chunks)
    {n first : Nat} (h : first ≤ n) :
    search? n first chunks = some (locate chunks (n - first + 1)) := by
  induction chunks generalizing first with
  | nil => rfl
  | cons c rest ih =>
    obtain ⟨hc, hw⟩ := List.forall_mem_cons.1 hw
    rw [search?]
    by_cases hlt : n < first + c.lineCount
    · have hsub : wordSub? n first = some (n - first) := if_pos h
      have hadd : wordAdd? c.lineOffset (n - first)
          = some (c.lineOffset + (n - first)) := if_pos (by omega)
      have hone : wordAdd? (c.lineOffset + (n - first)) 1
          = some (c.lineOffset + (n - first) + 1) := if_pos (by omega)
      rw [if_pos hlt, hsub, Option.bind_eq_bind, Option.bind_some, hadd,
        Option.bind_some, hone, Option.bind_some,
        locate_of_le (Nat.succ_pos _) (by omega)]
      rfl
    · rw [if_neg hlt, ih hw (by omega), locate_of_lt (by omega)]
      congr 2
      omega

theorem locateByCount?_eq {chunks : List Chunk} (hw : FitsWord chunks)
    (n : Nat) : locateByCount? chunks n = some (locate chunks n) := by
  unfold locateByCount?
  by_cases hn : n = 0
  · rw [if_pos hn, hn, locate_zero]
  · rw [if_neg hn, search?_eq hw (by omega), Nat.sub_add_cancel (by omega)]

/-! ## 4. Text and counts -/

/-- **Locating and joining agree.** A line is located exactly if it is one of
the lines of the joined text. It is then one line of one chunk, reads the same
there, and is located at the line that the chunk's offset says. Counting the
lines of the chunks one after another gives the same answer, and no
difference on the way goes below zero. In two lists put together, the first
one answers for its own lines and the second one for the lines behind. -/
theorem locate_joined {chunks : List Chunk} (he : Ended chunks)
    (hw : FitsWord chunks) (cr : Char) :
    (∀ n, (locate chunks n).isSome ↔
      1 ≤ n ∧ n ≤ (Text.splitLinesAt '\n' cr (joined chunks)).length) ∧
    (∀ n, 1 ≤ n →
      n ≤ (Text.splitLinesAt '\n' cr (joined chunks)).length →
      ∃ i k c line, LineOf chunks n i k c ∧
        (∀ i' k' c', LineOf chunks n i' k' c' → i' = i ∧ k' = k) ∧
        (Text.splitLinesAt '\n' cr (joined chunks))[n - 1]? = some line ∧
        (Text.splitLinesAt '\n' cr c.source)[k - 1]? = some line ∧
        locate chunks n = some (c.file, c.lineOffset + k)) ∧
    (∀ n, locateByCount? chunks n = some (locate chunks n)) ∧
    ∀ xs ys n, chunks = xs ++ ys → locate chunks n =
      if n ≤ totalLines xs then locate xs n
      else locate ys (n - totalLines xs) := by
  rw [length_splitLinesAt_joined he]
  refine ⟨locate_isSome_iff chunks, ?_, locateByCount?_eq hw, ?_⟩
  · intro n h1 hn
    obtain ⟨i, k, c, h⟩ := exists_lineOf h1 hn
    obtain ⟨line, hjoined, hsource⟩ := h.exists_line he cr
    exact ⟨i, k, c, line, h, fun _ _ _ => h.unique, hjoined, hsource,
      h.locate_eq⟩
  · rintro xs ys n rfl
    by_cases hn : n = 0
    · rw [if_pos (by omega), hn, locate_zero, locate_zero]
    · exact locate_append xs ys n (by omega)

/-- Chunks without lines before, between and behind two others; the last line
of the second one has the greatest number that a word can hold. -/
def gappedChunks : List Chunk :=
  [⟨[], ['b'], 7⟩, ⟨['x', '\r', '\n', '\n'], ['a'], 4⟩, ⟨[], ['a'], 0⟩,
    ⟨['y', '\n'], ['b'], UInt64.size - 2⟩, ⟨[], ['b'], 0⟩]

theorem locate_joined_gapped :
    Ended gappedChunks ∧ FitsWord gappedChunks ∧
    ∃ i k c line, LineOf gappedChunks 3 i k c ∧
      (Text.splitLinesAt '\n' '\r' (joined gappedChunks))[3 - 1]?
        = some line ∧
      (Text.splitLinesAt '\n' '\r' c.source)[k - 1]? = some line ∧
      locate gappedChunks 3 = some (c.file, c.lineOffset + k) ∧
      locateByCount? gappedChunks 3 = some (locate gappedChunks 3) := by
  have he : Ended gappedChunks := by decide
  have hw : FitsWord gappedChunks := by decide
  obtain ⟨-, hline, hcount, -⟩ := locate_joined he hw '\r'
  obtain ⟨i, k, c, line, h, -, hjoined, hsource, hloc⟩ :=
    hline 3 (by decide) (by decide)
  exact ⟨he, hw, i, k, c, line, h, hjoined, hsource, hloc, hcount 3⟩

end Chunk

end IncludeFlattener
