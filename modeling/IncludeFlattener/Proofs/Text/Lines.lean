/-
IncludeFlattener.Proofs.Text.Lines — what the line cutter does to a text
and to the bytes of a text.

* `lfFree_splitLines` and `lfFree_of_lines?`: no line holds an LF, whether
  it was cut out of a text or out of bytes.
* `splitLines_eq_lfLines`: where no CR LF stands, it makes no difference
  whether a CR before an LF belongs to the line end.
* `not_isPrefix_of_mem_splitLines`: a line without its CR starts with nothing
  that no line starts with.
* `lines?_encode`: the bytes of a text have the lines of the text.

The last one says that cutting and encoding can change places. It rests on
two facts about bytes: LF and CR are encoded as one byte each, and that byte
is in the encoding of no other character (`byte_mem_encodeChar_iff`). The
bytes of any other character therefore go into one line, in one piece
(`splitLinesAt_append`).
-/
import IncludeFlattener.Proofs.Chunk.Origin
import IncludeFlattener.Text.Utf8
namespace IncludeFlattener.Text

/-! ## 1. What is cut out holds no line end -/

section Cutter

variable {α : Type} [DecidableEq α] {lf cr : α}

omit [DecidableEq α] in
theorem not_mem_of_mem_extendFirst {c : α} (hc : c ≠ lf)
    {lines : List (List α)} (hl : ∀ line ∈ lines, lf ∉ line) :
    ∀ line ∈ extendFirst c lines, lf ∉ line := by
  intro line hm
  cases lines with
  | nil =>
    rw [extendFirst, List.mem_singleton] at hm
    simp [hm, Ne.symm hc]
  | cons first rest =>
    obtain ⟨hfirst, hrest⟩ := List.forall_mem_cons.1 hl
    rcases List.mem_cons.1 hm with rfl | hm
    · simp [Ne.symm hc, hfirst]
    · exact hrest line hm

theorem not_mem_of_mem_splitLinesAt (t : List α) :
    ∀ line ∈ splitLinesAt lf cr t, lf ∉ line := by
  fun_induction splitLinesAt lf cr t with
  | case1 => simp
  | case2 => simp
  | case3 c hc => simp [Ne.symm hc]
  | case4 _ _ ih => simpa using ih
  | case5 _ _ _ _ _ ih => simpa using ih
  | case6 c d rest hc _ ih => exact not_mem_of_mem_extendFirst hc ih

/-- Where no CR stands before an LF, it is all the same which symbol CR is. -/
theorem splitLinesAt_eq_of_not_infix {t : List α} (h : ¬ [cr, lf] <:+: t) :
    splitLinesAt lf cr t = splitLinesAt lf lf t := by
  induction t with
  | nil => rfl
  | cons c t ih =>
    have ih := ih fun hi => h (hi.trans (List.suffix_cons c t).isInfix)
    by_cases hc : c = lf
    · rw [hc, splitLinesAt_lf, splitLinesAt_lf, ih]
    · have hcr : c = cr → t.head? ≠ some lf := by
        rintro rfl ht
        obtain ⟨rest, rfl⟩ := List.head?_eq_some_iff.1 ht
        exact h (List.prefix_append [c, lf] rest).isInfix
      rw [splitLinesAt_cons hc hcr,
        splitLinesAt_cons hc (fun he => absurd he hc), ih]

omit [DecidableEq α] in
/-- Lines that are the beginnings of others stay so with one more symbol in
front. -/
theorem forall₂_extendFirst (c : α) {xs ys : List (List α)}
    (h : List.Forall₂ (· <+: ·) xs ys) :
    List.Forall₂ (· <+: ·) (extendFirst c xs) (extendFirst c ys) := by
  cases h with
  | nil => exact .cons List.prefix_rfl .nil
  | cons hfirst hrest =>
    exact .cons ((List.prefix_cons_inj c).2 hfirst) hrest

/-- A line is the beginning of the one that it is where a CR belongs to its
line. -/
theorem forall₂_splitLinesAt (t : List α) :
    List.Forall₂ (· <+: ·) (splitLinesAt lf cr t) (splitLinesAt lf lf t) := by
  fun_induction splitLinesAt lf cr t with
  | case1 => exact .nil
  | case2 => simp
  | case3 c hc => simp [splitLinesAt, hc]
  | case4 d rest ih =>
    rw [splitLinesAt_lf]
    exact .cons List.prefix_rfl ih
  | case5 c d rest hc hcr ih =>
    rw [splitLinesAt_cons hc (fun he => absurd he hc), hcr.2,
      splitLinesAt_lf]
    exact .cons List.nil_prefix ih
  | case6 c d rest hc _ ih =>
    rw [splitLinesAt_cons hc (fun he => absurd he hc)]
    exact forall₂_extendFirst c ih

end Cutter

theorem lfFree_splitLines (t : Text) : LfFree t.splitLines :=
  not_mem_of_mem_splitLinesAt t

theorem splitLines_eq_lfLines {t : Text} (h : ¬ ['\r', '\n'] <:+: t) :
    t.splitLines = t.lfLines :=
  splitLinesAt_eq_of_not_infix h

/-- What no line starts with is not the start of a line without its CR. -/
theorem not_isPrefix_of_mem_splitLines {start t : Text}
    (h : ∀ line ∈ t.lfLines, ¬ start <+: line) :
    ∀ line ∈ t.splitLines, ¬ start <+: line := by
  intro line hm hp
  obtain ⟨hlen, hget⟩ := List.forall₂_iff_get.1 (forall₂_splitLinesAt t)
  obtain ⟨i, hi, rfl⟩ := List.getElem_of_mem hm
  exact h _ (List.getElem_mem (hlen ▸ hi)) (hp.trans (hget i hi (hlen ▸ hi)))

/-! ## 2. Symbols that go into a line in one piece -/

/-- Puts a piece in front of the first line. -/
def extendFirstBy {α : Type} (piece : List α) :
    List (List α) → List (List α)
  | [] => [piece]
  | line :: rest => (piece ++ line) :: rest

/-- A piece without a line end goes to the front of the line that follows,
unless its last symbol and what follows are a line end together. -/
theorem splitLinesAt_append {α : Type} [DecidableEq α] {lf cr : α} :
    ∀ {piece rest : List α}, piece ≠ [] → lf ∉ piece →
    (cr ∈ piece → rest.head? ≠ some lf) →
    splitLinesAt lf cr (piece ++ rest)
      = extendFirstBy piece (splitLinesAt lf cr rest)
  | [], _, hn, _, _ => absurd rfl hn
  | [c], rest, _, hlf, hcr => by
      have hc : c ≠ lf := fun h => hlf (by simp [h])
      rw [List.singleton_append,
        splitLinesAt_cons hc fun h => hcr (by simp [h])]
      cases splitLinesAt lf cr rest <;> rfl
  | c :: d :: piece, rest, _, hlf, hcr => by
      have hc : c ≠ lf := fun h => hlf (by simp [h])
      have hd : d ≠ lf := fun h => hlf (by simp [h])
      have hlf : lf ∉ d :: piece := fun h => hlf (List.mem_cons_of_mem c h)
      have hcr : cr ∈ d :: piece → rest.head? ≠ some lf :=
        fun h => hcr (List.mem_cons_of_mem c h)
      have ih := splitLinesAt_append (List.cons_ne_nil d piece) hlf hcr
      rw [List.cons_append, splitLinesAt_cons hc fun _ => by simp [hd], ih]
      cases splitLinesAt lf cr rest <;> rfl

/-! ## 3. The bytes of lines -/

namespace Utf8

/-- The byte of an ASCII character is in the encoding of that character
alone. -/
theorem byte_mem_encodeChar_iff {a c : Char} (ha : a.toNat < 0x80) :
    UInt8.ofNat a.toNat ∈ String.utf8EncodeChar c ↔ c = a := by
  rw [← Char.toNat_inj]
  have hv : c.val.toNat = c.toNat := rfl
  show _ ∈ ite (c.toNat ≤ 127) _ (ite (c.toNat ≤ 2047) _
    (ite (c.toNat ≤ 65535) _ _)) ↔ _
  split_ifs
  all_goals
    simp only [List.mem_cons, List.not_mem_nil, or_false, ← UInt8.toNat_inj,
      UInt8.toNat_ofNat']
    omega

theorem byte_mem_encode_iff {a : Char} (ha : a.toNat < 0x80) {t : Text} :
    UInt8.ofNat a.toNat ∈ encode t ↔ a ∈ t := by
  simp [encode, byte_mem_encodeChar_iff ha]

theorem encode_cons (c : Char) (t : Text) :
    encode (c :: t) = String.utf8EncodeChar c ++ encode t := rfl

theorem encodeChar_ne_nil (c : Char) : String.utf8EncodeChar c ≠ [] := by
  have h := c.utf8Size_pos
  rw [← String.length_utf8EncodeChar] at h
  exact List.ne_nil_of_length_pos h

theorem map_encode_extendFirst (c : Char) (lines : List Text) :
    (extendFirst c lines).map encode
      = extendFirstBy (String.utf8EncodeChar c) (lines.map encode) := by
  cases lines <;> simp [extendFirst, extendFirstBy, encode]

/-- Only an LF is encoded with the byte of LF in front. -/
theorem head?_encode_ne_lf {t : Text} (h : t.head? ≠ some '\n') :
    (encode t).head? ≠ some 0x0A := by
  cases t with
  | nil => simp [encode]
  | cons d t =>
    intro hd
    rw [encode_cons, List.head?_append_of_ne_nil _ (encodeChar_ne_nil d)] at hd
    have hm := List.mem_of_head? hd
    exact h (congrArg some
      ((byte_mem_encodeChar_iff (a := '\n') (by decide)).1 hm))

/-- A character that does not end a line goes to the front of the line that
follows, and so do its bytes. -/
theorem splitLinesAt_encode_cons {c : Char} {t : Text} (hc : c ≠ '\n')
    (hcr : c = '\r' → t.head? ≠ some '\n')
    (ih : splitLinesAt 0x0A 0x0D (encode t) = t.splitLines.map encode) :
    splitLinesAt 0x0A 0x0D (encode (c :: t))
      = (extendFirst c t.splitLines).map encode := by
  rw [map_encode_extendFirst, ← ih, encode_cons]
  refine splitLinesAt_append (encodeChar_ne_nil c) ?_ fun hm => ?_
  · exact mt (byte_mem_encodeChar_iff (a := '\n') (by decide)).1 hc
  · exact head?_encode_ne_lf
      (hcr ((byte_mem_encodeChar_iff (a := '\r') (by decide)).1 hm))

/-- To cut the bytes of a text is to cut the text. -/
theorem splitLinesAt_encode (t : Text) :
    splitLinesAt 0x0A 0x0D (encode t) = t.splitLines.map encode := by
  rw [splitLines]
  fun_induction splitLinesAt '\n' '\r' t with
  | case1 => rfl
  | case2 => rfl
  | case3 c hc => exact splitLinesAt_encode_cons hc (by simp) rfl
  | case4 d rest ih =>
    rw [encode_cons, List.map_cons, ← ih]
    exact splitLinesAt_lf _
  | case5 c d rest _ hcr ih =>
    obtain ⟨rfl, rfl⟩ := hcr
    rw [encode_cons, encode_cons, List.map_cons, ← ih]
    exact splitLinesAt_cr_lf (by decide) _
  | case6 c d rest hc hcr ih =>
    exact splitLinesAt_encode_cons hc (by simpa using hcr) ih

/-- Pieces are decoded to lines exactly if they are the bytes of these
lines. -/
theorem mapM_decode?_eq_some_iff {pieces : List (List UInt8)}
    {lines : List Text} :
    pieces.mapM decode? = some lines ↔ pieces = lines.map encode := by
  induction pieces generalizing lines with
  | nil =>
    rw [List.mapM_nil]
    cases lines <;> simp
  | cons piece pieces ih =>
    rw [List.mapM_cons, Option.bind_eq_bind, Option.bind_eq_some_iff]
    simp only [Option.bind_eq_bind, Option.bind_eq_some_iff, ih,
      decode?_eq_some_iff, Option.pure_def, Option.some.injEq]
    constructor
    · rintro ⟨line, rfl, rest, rfl, rfl⟩
      rfl
    · intro h
      obtain ⟨line, rest, rfl, hl, hr⟩ := List.map_eq_cons_iff.1 h.symm
      exact ⟨line, hl.symm, rest, hr.symm, rfl⟩

/-- The bytes of a text have the lines of the text. -/
theorem lines?_encode (t : Text) : lines? (encode t) = some t.splitLines := by
  rw [lines?, splitLinesAt_encode, mapM_decode?_eq_some_iff]

theorem lfFree_of_lines? {bytes : List UInt8} {lines : List Text}
    (h : lines? bytes = some lines) : LfFree lines := by
  intro line hl hlf
  have hpiece : encode line ∈ splitLinesAt 0x0A 0x0D bytes := by
    rw [mapM_decode?_eq_some_iff.1 h]
    exact List.mem_map_of_mem hl
  exact not_mem_of_mem_splitLinesAt bytes _ hpiece
    ((byte_mem_encode_iff (a := '\n') (by decide)).2 hlf)

end Utf8

end IncludeFlattener.Text
