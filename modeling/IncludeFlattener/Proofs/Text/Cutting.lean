/-
IncludeFlattener.Proofs.Text.Cutting — a text is its lines with their line
ends.

`CutInto` says how a sequence is made of lines, without saying how they are
found: each line is followed by an LF or by a CR LF, the last one perhaps by
nothing. The line cutter finds lines of which the sequence is made
(`cutInto_splitLinesAt`), and two facts about it follow by induction on how
it is made.

* `Utf8.lines?_eq`: it is all the same whether bytes are decoded before they
  are cut or behind. Where every line is UTF-8, the whole is, since a line
  end is.
* `endLines_splitLines`: lines written one after another are the text that
  they were cut out of, but for its line ends.

The first does not follow from what the cutter does symbol by symbol: a
character of several bytes is put in front of a line byte by byte, and what
is there in between is no text.
-/
import IncludeFlattener.Proofs.Text.Lines
namespace IncludeFlattener.Text

/-! ## 1. What a sequence is made of -/

/-- The sequence is made of these lines. An LF ends a line, and so does a CR
directly before it, which is therefore not the end of a line that an LF
follows. The last line may go without a line end, unless it is empty. -/
inductive CutInto {α : Type} (lf cr : α) : List α → List (List α) → Prop where
  | nil : CutInto lf cr [] []
  | last {line : List α} (hn : line ≠ []) (hl : lf ∉ line) :
      CutInto lf cr line [line]
  | lf {line rest : List α} {lines : List (List α)} (hl : lf ∉ line)
      (hc : line.getLast? ≠ some cr) (h : CutInto lf cr rest lines) :
      CutInto lf cr (line ++ lf :: rest) (line :: lines)
  | crlf {line rest : List α} {lines : List (List α)} (hl : lf ∉ line)
      (h : CutInto lf cr rest lines) :
      CutInto lf cr (line ++ cr :: lf :: rest) (line :: lines)

section Cutter

variable {α : Type} [DecidableEq α] {lf cr : α}

omit [DecidableEq α] in
/-- A symbol that is no part of a line end goes to the front of the line that
follows. -/
theorem CutInto.extendFirst {c : α} {t : List α} {lines : List (List α)}
    (h : CutInto lf cr t lines) (hc : c ≠ lf)
    (hcr : c = cr → t.head? ≠ some lf) :
    CutInto lf cr (c :: t) (Text.extendFirst c lines) := by
  cases h with
  | nil => exact .last (by simp) (by simp [Ne.symm hc])
  | last _ hl => exact .last (by simp) (by simp [Ne.symm hc, hl])
  | @lf line rest lines hl hlast h =>
    have hlast : (c :: line).getLast? ≠ some cr := by
      cases line with
      | nil =>
        rintro ⟨⟩
        exact hcr rfl rfl
      | cons d line => rwa [List.getLast?_cons_cons]
    exact .lf (by simp [Ne.symm hc, hl]) hlast h
  | @crlf line _ _ hl h =>
    exact @CutInto.crlf _ _ _ (c :: line) _ _ (by simp [Ne.symm hc, hl]) h

omit [DecidableEq α] in
/-- A line end in front ends an empty line. -/
theorem CutInto.lf_cons {rest : List α} {lines : List (List α)}
    (h : CutInto lf cr rest lines) : CutInto lf cr (lf :: rest) ([] :: lines) :=
  @CutInto.lf _ _ _ [] _ _ List.not_mem_nil (by simp) h

omit [DecidableEq α] in
theorem CutInto.crlf_cons {rest : List α} {lines : List (List α)}
    (h : CutInto lf cr rest lines) :
    CutInto lf cr (cr :: lf :: rest) ([] :: lines) :=
  @CutInto.crlf _ _ _ [] _ _ List.not_mem_nil h

theorem cutInto_splitLinesAt (h : cr ≠ lf) (t : List α) :
    CutInto lf cr t (splitLinesAt lf cr t) := by
  fun_induction splitLinesAt lf cr t with
  | case1 => exact .nil
  | case2 => exact .lf_cons .nil
  | case3 c hc => exact .last (by simp) (by simp [Ne.symm hc])
  | case4 _ _ ih => exact ih.lf_cons
  | case5 c d rest _ hcr ih =>
    obtain ⟨rfl, rfl⟩ := hcr
    exact ih.crlf_cons
  | case6 c d rest hc hcr ih => exact ih.extendFirst hc (by simpa using hcr)

end Cutter

theorem cutInto_splitLines (t : Text) : CutInto '\n' '\r' t t.splitLines :=
  cutInto_splitLinesAt (by decide) t

/-! ## 2. Bytes cut into texts -/

namespace Utf8

/-- Bytes are UTF-8 if all their lines are. -/
theorem exists_eq_encode_of_cutInto {bytes : List UInt8}
    {pieces : List (List UInt8)} (h : CutInto 0x0A 0x0D bytes pieces)
    (hp : ∀ piece ∈ pieces, ∃ line, piece = encode line) :
    ∃ t, bytes = encode t := by
  induction h with
  | nil => exact ⟨[], rfl⟩
  | last => exact hp _ List.mem_cons_self
  | lf _ _ _ ih =>
    obtain ⟨⟨line, hline⟩, hrest⟩ := List.forall_mem_cons.1 hp
    obtain ⟨rest, rfl⟩ := ih hrest
    refine ⟨line ++ '\n' :: rest, ?_⟩
    rw [encode_append, hline]
    rfl
  | crlf _ _ ih =>
    obtain ⟨⟨line, hline⟩, hrest⟩ := List.forall_mem_cons.1 hp
    obtain ⟨rest, rfl⟩ := ih hrest
    refine ⟨line ++ '\r' :: '\n' :: rest, ?_⟩
    rw [encode_append, hline]
    rfl

theorem exists_eq_encode_of_lines? {bytes : List UInt8} {lines : List Text}
    (h : lines? bytes = some lines) : ∃ t, bytes = encode t := by
  have hcut : CutInto 0x0A 0x0D bytes (splitLinesAt 0x0A 0x0D bytes) :=
    cutInto_splitLinesAt (by decide) bytes
  rw [mapM_decode?_eq_some_iff.1 h] at hcut
  refine exists_eq_encode_of_cutInto hcut fun piece hm => ?_
  obtain ⟨line, -, rfl⟩ := List.mem_map.1 hm
  exact ⟨line, rfl⟩

/-- To cut bytes into lines and to decode each is to decode the bytes and to
cut the text. One has a result if the other has. -/
theorem lines?_eq (bytes : List UInt8) :
    lines? bytes = (decode? bytes).map splitLines := by
  cases hd : decode? bytes with
  | some t => rw [eq_encode_of_decode? hd, lines?_encode, Option.map_some]
  | none =>
    rw [Option.map_none, Option.eq_none_iff_forall_ne_some]
    intro lines hl
    obtain ⟨t, rfl⟩ := exists_eq_encode_of_lines? hl
    rw [decode?_encode] at hd
    cases hd

end Utf8

/-! ## 3. Lines written again -/

/-- The text with an LF for every CR LF: a CR directly before an LF is left
out. -/
def crlfToLf : Text → Text
  | [] => []
  | c :: rest =>
    if c = '\r' ∧ rest.head? = some '\n' then crlfToLf rest
    else c :: crlfToLf rest

/-- The LF that a text lacks behind its last line. An empty text has no
line. -/
def missingLf (t : Text) : Text :=
  if t = [] ∨ t.getLast? = some '\n' then [] else ['\n']

theorem crlfToLf_crlf (rest : Text) :
    crlfToLf ('\r' :: '\n' :: rest) = '\n' :: crlfToLf rest := by
  simp [crlfToLf]

/-- Up to a line end that is not the second half of a CR LF, nothing
changes. -/
theorem crlfToLf_line {line rest : Text} (hl : '\n' ∉ line)
    (hc : line.getLast? = some '\r' → rest.head? ≠ some '\n') :
    crlfToLf (line ++ rest) = line ++ crlfToLf rest := by
  induction line with
  | nil => rfl
  | cons c line ih =>
    rw [List.mem_cons, not_or] at hl
    have hn : ¬(c = '\r' ∧ (line ++ rest).head? = some '\n') := by
      rintro ⟨rfl, hh⟩
      cases line with
      | nil => exact hc rfl hh
      | cons d line =>
        cases hh
        exact hl.2 List.mem_cons_self
    rw [List.cons_append, crlfToLf, if_neg hn, ih hl.2, List.cons_append]
    intro hlast
    refine hc ?_
    rw [List.getLast?_cons, hlast]
    rfl

/-- What a text lacks behind its last line end is what it lacks. -/
theorem missingLf_append_lf (start rest : Text) :
    missingLf (start ++ '\n' :: rest) = missingLf rest := by
  cases rest with
  | nil => simp [missingLf]
  | cons c rest =>
    rw [missingLf, missingLf, List.getLast?_append, List.getLast?_cons_cons]
    simp

/-- The lines of a text, each ended by LF, are the text with an LF for every
CR LF and one LF more if the last line was not ended. -/
theorem endLines_splitLines (t : Text) :
    endLines t.splitLines = t.crlfToLf ++ t.missingLf := by
  have h := cutInto_splitLines t
  generalize t.splitLines = lines at h ⊢
  induction h with
  | nil => rfl
  | @last line hn hl =>
    have hlf : line.getLast? ≠ some '\n' :=
      fun h => hl (List.mem_of_getLast? h)
    have hline := @crlfToLf_line line [] hl (by simp)
    rw [List.append_nil] at hline
    rw [hline, missingLf, if_neg (by simp [hn, hlf])]
    simp [crlfToLf]
  | @lf line rest lines hl hc _ ih =>
    rw [endLines_cons, ih, missingLf_append_lf,
      crlfToLf_line hl fun h => absurd h hc]
    simp [crlfToLf]
  | @crlf line rest lines hl _ ih =>
    have hmissing := missingLf_append_lf (line ++ ['\r']) rest
    rw [List.append_assoc, List.singleton_append] at hmissing
    rw [endLines_cons, ih, hmissing, crlfToLf_line hl (by simp),
      crlfToLf_crlf]
    simp

end IncludeFlattener.Text
