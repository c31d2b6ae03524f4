/-
IncludeFlattener.Proofs.Directive.Offsets — the grammar of a directive, and
its reading by byte offsets.

A line whose bytes are those of a text can be read without looking at its
characters: the keyword is compared byte by byte, the quotes are searched
for byte by byte, the second one from behind the first, and the path is the
slice between two offsets. A slice, though, is a text only where its bounds
stand between two characters; anywhere else there is nothing to give.

* `cutAtByte?_eq_some_iff`: where a text can be cut, that is at the byte
  lengths of its beginnings and nowhere else.
* `encode_isPrefix_iff` and `quoteOffset?_eq`: what the comparison and the
  search find among the bytes is what stands in the text. Both rest on the
  bytes of one character not being the beginning, or a part, of those of
  another.
* `classifyAtOffsets?_eq`: so each bound is one at which the line can be
  cut, and the reading by offsets is `classify`.
* `Parts.unique`: there is one way to take a directive apart.

**`classify_exactly`** has these together with the grammar of the three kinds
of lines.
-/
import IncludeFlattener.Directive
import IncludeFlattener.Proofs.Text.Lines
namespace IncludeFlattener

namespace Text.Utf8

/-! ## 1. Cutting a text at a byte -/

/-- The text before byte `i` and the text from there on. There is nothing to
give if `i` lies beyond the end or inside a character. -/
def cutAtByte? : Text → Nat → Option (Text × Text)
  | t, 0 => some ([], t)
  | [], _ + 1 => none
  | c :: t, i + 1 =>
    if c.utf8Size ≤ i + 1 then
      (cutAtByte? t (i + 1 - c.utf8Size)).map fun (u, v) => (c :: u, v)
    else none

/-- The slice from byte `i` on. -/
def sliceFrom? (t : Text) (i : Nat) : Option Text :=
  (cutAtByte? t i).map (·.2)

/-- The slice from byte `i` to byte `j`. -/
def slice? (t : Text) (i j : Nat) : Option Text :=
  (cutAtByte? t j).bind fun (u, _) => sliceFrom? u i

theorem byteLength_cons (c : Char) (t : Text) :
    byteLength (c :: t) = c.utf8Size + byteLength t := by
  rw [byteLength, encode_cons, List.length_append,
    String.length_utf8EncodeChar, byteLength]

theorem cutAtByte?_append : ∀ u v : Text,
    cutAtByte? (u ++ v) (byteLength u) = some (u, v)
  | [], v => by simp [byteLength, encode, cutAtByte?]
  | c :: u, v => by
      have hc := c.utf8Size_pos
      obtain ⟨n, hn⟩ : ∃ n, byteLength (c :: u) = n + 1 :=
        Nat.exists_eq_add_one.2 (by rw [byteLength_cons]; omega)
      have hrest : n + 1 - c.utf8Size = byteLength u := by
        rw [← hn, byteLength_cons, Nat.add_sub_cancel_left]
      rw [hn, List.cons_append, cutAtByte?,
        if_pos (by rw [← hn, byteLength_cons]; omega), hrest,
        cutAtByte?_append u v]
      rfl

/-- A text can be cut at the byte lengths of its beginnings. -/
theorem cutAtByte?_eq_some_iff {t u v : Text} {i : Nat} :
    cutAtByte? t i = some (u, v) ↔ t = u ++ v ∧ byteLength u = i := by
  constructor
  · fun_induction cutAtByte? t i generalizing u v with
    | case1 t =>
      rintro ⟨⟩
      exact ⟨rfl, rfl⟩
    | case2 i => simp
    | case3 c t i hc ih =>
      intro h
      obtain ⟨⟨u', v'⟩, h', he⟩ := Option.map_eq_some_iff.1 h
      cases he
      obtain ⟨rfl, hu⟩ := ih h'
      rw [byteLength_cons, hu]
      exact ⟨rfl, by omega⟩
    | case4 => simp
  · rintro ⟨rfl, rfl⟩
    exact cutAtByte?_append u v

theorem sliceFrom?_append (u v : Text) :
    sliceFrom? (u ++ v) (byteLength u) = some v := by
  rw [sliceFrom?, cutAtByte?_append]
  rfl

theorem slice?_append (u q v : Text) :
    slice? (u ++ (q ++ v)) (byteLength u) (byteLength u + byteLength q)
      = some q := by
  rw [slice?, ← List.append_assoc, ← byteLength_append, cutAtByte?_append]
  exact sliceFrom?_append u q

/-! ## 2. Comparing and searching among the bytes -/

/-- The bytes of a character tell which one it is, whatever follows them. -/
theorem encodeChar_append_inj {c d : Char} {s t : List UInt8}
    (h : String.utf8EncodeChar c ++ s = String.utf8EncodeChar d ++ t) :
    c = d ∧ s = t := by
  have hcd : some c = some d := by
    rw [← ByteArray.utf8DecodeChar?_utf8EncodeChar_append
        (b := s.toByteArray), ← List.toByteArray_append, h,
      List.toByteArray_append, ByteArray.utf8DecodeChar?_utf8EncodeChar_append]
  obtain rfl := Option.some.inj hcd
  exact ⟨rfl, List.append_cancel_left h⟩

/-- Bytes of a text begin with those of another only if the text does. -/
theorem encode_isPrefix_iff {start t : Text} :
    encode start <+: encode t ↔ start <+: t := by
  constructor
  · induction start generalizing t with
    | nil => exact fun _ => List.nil_prefix
    | cons c start ih =>
      rintro ⟨rest, h⟩
      rw [encode_cons, List.append_assoc] at h
      cases t with
      | nil =>
        exact absurd (List.append_eq_nil_iff.1 h).1 (encodeChar_ne_nil c)
      | cons d t =>
        obtain ⟨rfl, hrest⟩ := encodeChar_append_inj h
        exact (List.prefix_cons_inj c).2 (ih ⟨rest, hrest⟩)
  · rintro ⟨rest, rfl⟩
    rw [encode_append]
    exact List.prefix_append _ _

end Text.Utf8

namespace Directive

open Text.Utf8 (encode byteLength sliceFrom? slice?)

/-- The offset of the first byte that is a quote. -/
def quoteOffset? (t : Text) : Option Nat := (encode t).idxOf? 0x22

theorem quoteOffset?_append {u : Text} (hu : '"' ∉ u) (v : Text) :
    quoteOffset? (u ++ '"' :: v) = some (byteLength u) := by
  have hb : (0x22 : UInt8) ∉ encode u :=
    mt (Text.Utf8.byte_mem_encode_iff (a := '"') (by decide)).1 hu
  rw [quoteOffset?, Text.Utf8.encode_append, List.idxOf?,
    List.findIdx?_append, ← List.idxOf?, List.idxOf?_eq_none_iff.2 hb]
  rw [Text.Utf8.encode_cons]
  exact congrArg some (Nat.zero_add _)

/-- The first quote byte is the first quote. -/
theorem quoteOffset?_eq (t : Text) :
    quoteOffset? t = (cutAtQuote? t).map (byteLength ·.1) := by
  cases h : cutAtQuote? t with
  | none =>
    exact List.idxOf?_eq_none_iff.2
      (mt (Text.Utf8.byte_mem_encode_iff (a := '"') (by decide)).1
        (cutAtQuote?_eq_none_iff.1 h))
  | some cut =>
    obtain ⟨rfl, hu⟩ := cutAtQuote?_eq_some_iff.1 h
    exact quoteOffset?_append hu cut.2

/-! ## 3. Reading a line by offsets -/

/-- The text between the first quote and the next one, if there are two, by
offsets. There is nothing at all to give if the text cannot be cut at one of
them. -/
def quotedPathAtOffsets? (t : Text) : Option (Option Path) :=
  match quoteOffset? t with
  | none => some none
  | some offset =>
    let start := offset + 1
    (sliceFrom? t start).bind fun rest =>
      match quoteOffset? rest with
      | none => some none
      | some length => (slice? t start (start + length)).map some

/-- What a line is under a keyword, by offsets. -/
def classifyAtOffsets? (keyword : Keyword) (line : Text) : Option LineKind :=
  if encode keyword.text <+: encode line then
    (sliceFrom? line (byteLength keyword.text)).bind fun rest =>
      (quotedPathAtOffsets? rest).map fun
        | none => .malformed
        | some path => .directive path
  else some .ordinary

theorem quotedPathAtOffsets?_eq (t : Text) :
    quotedPathAtOffsets? t = some (quotedPath? t) := by
  unfold quotedPathAtOffsets? quotedPath?
  rw [quoteOffset?_eq]
  cases hu : cutAtQuote? t with
  | none => rfl
  | some cut =>
    obtain ⟨u, rest⟩ := cut
    obtain ⟨rfl, -⟩ := cutAtQuote?_eq_some_iff.1 hu
    -- Behind the first quote, which is one byte long.
    have hstart : byteLength u + 1 = byteLength (u ++ ['"']) := by
      rw [Text.Utf8.byteLength_append]
      rfl
    have hline : u ++ '"' :: rest = (u ++ ['"']) ++ rest := by simp
    simp only [Option.map_some, Option.bind_some, hline, hstart,
      Text.Utf8.sliceFrom?_append, quoteOffset?_eq rest]
    cases hq : cutAtQuote? rest with
    | none => rfl
    | some cut =>
      obtain ⟨q, v⟩ := cut
      obtain ⟨rfl, -⟩ := cutAtQuote?_eq_some_iff.1 hq
      simp only [Option.map_some, Text.Utf8.slice?_append]

/-- No bound falls inside a character or beyond the end of the line, and the
slices are what `classify` finds. -/
theorem classifyAtOffsets?_eq (keyword : Keyword) (line : Text) :
    classifyAtOffsets? keyword line = some (classify keyword line) := by
  unfold classifyAtOffsets? classify
  simp only [Text.Utf8.encode_isPrefix_iff]
  cases hr : Text.after? keyword.text line with
  | none => exact if_neg (Text.after?_eq_none_iff.1 hr)
  | some rest =>
    obtain rfl := Text.after?_eq_some_iff.1 hr
    rw [if_pos (List.prefix_append _ _), Text.Utf8.sliceFrom?_append,
      Option.bind_some, quotedPathAtOffsets?_eq]
    rfl

/-! ## 4. The grammar -/

/-- The line is the keyword, then `u`, a quote, `q`, a quote and `v`, and
there is no other quote before the second one except in the keyword. -/
structure Parts (keyword : Keyword) (line u q v : Text) : Prop where
  line_eq : line = keyword.text ++ (u ++ '"' :: (q ++ '"' :: v))
  not_mem_before : '"' ∉ u
  not_mem_path : '"' ∉ q

theorem names_iff_parts {keyword : Keyword} {line q : Text} :
    Names keyword line q ↔ ∃ u v, Parts keyword line u q v :=
  ⟨fun ⟨u, v, hl, hu, hq⟩ => ⟨u, v, hl, hu, hq⟩,
    fun ⟨u, v, h⟩ => ⟨u, v, h.line_eq, h.not_mem_before, h.not_mem_path⟩⟩

/-- There is one way to take a directive apart. -/
theorem Parts.unique {keyword : Keyword} {line u q v u' q' v' : Text}
    (h : Parts keyword line u q v) (h' : Parts keyword line u' q' v') :
    u = u' ∧ q = q' ∧ v = v' := by
  have hrest := List.append_cancel_left (h.line_eq.symm.trans h'.line_eq)
  have hu := cutAtQuote?_append u (q ++ '"' :: v) h.not_mem_before
  rw [hrest, cutAtQuote?_append _ _ h'.not_mem_before, Option.some.injEq,
    Prod.mk.injEq] at hu
  have hq := cutAtQuote?_append q v h.not_mem_path
  rw [← hu.2, cutAtQuote?_append _ _ h'.not_mem_path, Option.some.injEq,
    Prod.mk.injEq] at hq
  exact ⟨hu.1.symm, hq.1.symm, hq.2.symm⟩

/-- What a line is depends on what follows the keyword, not on what the
keyword is. -/
theorem classify_append (keyword : Keyword) (rest : Text) :
    classify keyword (keyword.text ++ rest)
      = (quotedPath? rest).elim .malformed .directive := by
  rw [classify, Text.after?_eq_some_iff.2 rfl]
  cases h : quotedPath? rest with
  | none => simp only [h, Option.elim_none]
  | some path => simp only [h, Option.elim_some]

/-- **What a line is.** Under every keyword a line is ordinary exactly if it
does not start with the keyword, names `q` exactly if it can be taken apart
with `q` between the quotes, and is malformed exactly if it starts with the
keyword and fewer than two quotes follow. A line can be taken apart in one
way only. Quotes in the keyword make no difference: what follows one keyword
is read as it is read behind another. The reading by byte offsets cuts the
line between characters only, and finds the same. -/
theorem classify_exactly (keyword : Keyword) (line : Text) :
    (classify keyword line = .ordinary ↔ ¬ keyword.text <+: line) ∧
    (∀ q, classify keyword line = .directive q ↔
      ∃ u v, Parts keyword line u q v) ∧
    (∀ u q v u' q' v', Parts keyword line u q v →
      Parts keyword line u' q' v' → u = u' ∧ q = q' ∧ v = v') ∧
    (classify keyword line = .malformed ↔
      ∃ rest, line = keyword.text ++ rest ∧ rest.count '"' < 2) ∧
    (∀ (other : Keyword) (rest : Text),
      classify other (other.text ++ rest)
        = classify keyword (keyword.text ++ rest)) ∧
    classifyAtOffsets? keyword line = some (classify keyword line) := by
  refine ⟨classify_eq_ordinary_iff, fun q => ?_,
    fun _ _ _ _ _ _ h h' => h.unique h', classify_eq_malformed_iff,
    fun other rest => ?_, classifyAtOffsets?_eq keyword line⟩
  · rw [classify_eq_directive_iff, names_iff_parts]
  · rw [classify_append, classify_append]

/-- A keyword with a quote, three bytes of another character before the
path, and an empty path. -/
example : classifyAtOffsets? ⟨['"', '#'], by decide⟩
    ['"', '#', '→', '"', '"', 'x', '"'] = some (.directive []) := by
  decide

end Directive

end IncludeFlattener
