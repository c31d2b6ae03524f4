/-
IncludeFlattener.Proofs.CompilerLog.LineByLine — where a log can be cut
before it is remapped.

A log is remapped line by line, but for one case. White space may stand
between the colon of a labelled reference and its numbers, and a line end is
white space; so a reference can begin on one line and end on another
(`Straddles`). If its line is located, the whole reference gives way to one
place, and the line ends in it are lost.

* `remap_append_lf_iff`: the two sides of an LF can be remapped apart
  exactly if no such reference straddles it. One that is not located is kept,
  and then neither of its halves is touched on its own.
* `remap_line_by_line`: what this means for a whole log, for its lines and
  for their number.

The latter asks that the numbers of the lines of the files fit a word. There,
a log that is remapped on words comes out as `remap` says
(`remap?_locateByCount?`).

The proof follows the one pass over both spellings (`remap_eq_remap_either`)
up to the LF. What the pass recognises before the LF it recognises without
what follows, since an LF is no digit (`Refers.append_lf`); and a reference
that reaches over the LF has it in its white space (`IsLabelled.exists_cut`).
-/
import IncludeFlattener.Proofs.CompilerLog.OneScan
namespace IncludeFlattener.CompilerLog

open Text.CharSet (digit blank)

/-! ## 1. References across a line end -/

/-- Whether a line begins behind a text; `atStart` tells whether one begins
in front of it. -/
def startsLine (atStart : Bool) (t : Text) : Bool :=
  t.foldl (fun _ c => c = '\n') atStart

/-- A labelled reference begins in the first of two texts, where a line
begins, and has the LF between them in it; and its line is located. -/
inductive Straddles (chunks : List Chunk) (atStart : Bool) :
    Text → Text → Prop where
  | across {start u v rest : Text} {r : Reference} {file : Path} {line : Nat}
      (hs : startsLine atStart start = true) (hr : IsLabelled r)
      (ht : r.text = u ++ '\n' :: v) (hn : NotNext digit.contains rest)
      (hl : Locates (.unbounded chunks) r.number file line) :
      Straddles chunks atStart (start ++ u) (v ++ rest)

theorem Straddles.of_start {chunks : List Chunk} {atStart : Bool}
    {u v rest : Text} {r : Reference} {file : Path} {line : Nat}
    (hs : atStart = true) (hr : IsLabelled r) (ht : r.text = u ++ '\n' :: v)
    (hn : NotNext digit.contains rest)
    (hl : Locates (.unbounded chunks) r.number file line) :
    Straddles chunks atStart u (v ++ rest) :=
  @Straddles.across chunks atStart [] u v rest r file line hs hr ht hn hl

theorem startsLine_append (atStart : Bool) (s t : Text) :
    startsLine atStart (s ++ t) = startsLine (startsLine atStart s) t :=
  List.foldl_append

theorem startsLine_append_singleton (atStart : Bool) (t : Text) (c : Char) :
    startsLine atStart (t ++ [c]) = decide (c = '\n') := by
  rw [startsLine_append]
  rfl

/-- Where a line begins behind a text in the middle of a line, one begins
behind it anywhere. -/
theorem startsLine_of_false {t : Text} (h : startsLine false t = true)
    (atStart : Bool) : startsLine atStart t = true := by
  cases t with
  | nil => cases h
  | cons c t => exact h

theorem Straddles.of_false {chunks : List Chunk} {atStart : Bool}
    {a b : Text} (h : Straddles chunks false a b) :
    Straddles chunks atStart a b := by
  cases h with
  | across hs hr ht hn hl =>
    exact .across (startsLine_of_false hs atStart) hr ht hn hl

/-- Text in front changes nothing but where lines begin. -/
theorem Straddles.append {chunks : List Chunk} {atStart : Bool}
    {s a b : Text} (h : Straddles chunks (startsLine atStart s) a b) :
    Straddles chunks atStart (s ++ a) b := by
  cases h with
  | @across start u v rest r file line hs hr ht hn hl =>
    rw [← startsLine_append] at hs
    rw [← List.append_assoc]
    exact .across hs hr ht hn hl

section Places

variable {chunks : List Chunk} {r : Reference} (hn : r.number ≠ [])

include hn

theorem remapped_of_locates {file : Path} {line : Nat}
    (h : Locates (.unbounded chunks) r.number file line) :
    r.remapped chunks
      = r.label ++ file ++ '(' :: (Text.Decimal.write line ++ [')']) := by
  have he := remapped?_of_locates hn h
  rw [Reference.remapped?_unbounded] at he
  exact Option.some.inj he

theorem remapped_of_not_locates
    (h : ∀ file line, ¬ Locates (.unbounded chunks) r.number file line) :
    r.remapped chunks = r.text := by
  have hnone : LocatesNone (.unbounded chunks) r.number := by
    intro hd hb
    refine congrArg some (Option.eq_none_iff_forall_ne_some.2 ?_)
    rintro ⟨file, line⟩ hl
    exact h file line ⟨hd, hb, congrArg some hl⟩
  have he := remapped?_of_locatesNone hn hnone
  rw [Reference.remapped?_unbounded] at he
  exact Option.some.inj he

end Places

/-! ## 2. Text in which no reference begins -/

theorem exists_letter_of_mem_severities {word : Text}
    (h : word ∈ severities) :
    ∃ c tail, word = c :: tail ∧ (c = 'E' ∨ c = 'W') := by
  simp only [severities, List.mem_cons, List.not_mem_nil, or_false] at h
  rcases h with rfl | rfl
  · exact ⟨'E', _, rfl, .inl rfl⟩
  · exact ⟨'W', _, rfl, .inr rfl⟩

/-- Neither of the two letters is white space or a digit. -/
theorem ne_letter {c : Char}
    (h : blank.contains c = true ∨ digit.contains c = true) :
    c ≠ 'E' ∧ c ≠ 'W' := by
  constructor
  · rintro rfl
    exact absurd h (by decide)
  · rintro rfl
    exact absurd h (by decide)

theorem labelled?_cons_eq_none {c : Char} {t : Text} (hE : c ≠ 'E')
    (hW : c ≠ 'W') : labelled.recognise (c :: t) = none := by
  rw [Option.eq_none_iff_forall_ne_some]
  rintro ⟨r, rest⟩ hs
  obtain ⟨⟨word, hw, _, _, _, -, -, -, rfl⟩, -, ht⟩ :=
    labelled?_eq_some_iff.1 hs
  obtain ⟨d, tail, rfl, hd⟩ := exists_letter_of_mem_severities hw
  obtain rfl := (List.cons.inj ht).1
  exact hd.elim hE hW

/-- A reference begins with a digit or with one of two letters. -/
theorem either_cons_eq_none {c : Char} (t : Text)
    (hd : digit.contains c = false) (hE : c ≠ 'E') (hW : c ≠ 'W') :
    either.recognise (c :: t) = none :=
  Option.or_eq_none_iff.2
    ⟨labelled?_cons_eq_none hE hW, parenthesized?_cons_eq_none hd⟩

/-- A reference has a digit in it. -/
theorem Refers.exists_digit {t rest : Text} {r : Reference}
    (h : Refers t r rest) : ∃ c ∈ t, digit.contains c = true := by
  have hdigit : ∃ c ∈ r.text, digit.contains c = true := by
    cases h with
    | labelled h _ =>
      obtain ⟨word, -, blanks, first, second, -, h1, -, rfl⟩ := h
      obtain ⟨d, tail, rfl⟩ := List.exists_cons_of_ne_nil h1.ne_nil
      exact ⟨d, by simp, h1.digits d List.mem_cons_self⟩
    | parenthesized h =>
      obtain ⟨first, second, h1, -, rfl⟩ := h
      obtain ⟨d, tail, rfl⟩ := List.exists_cons_of_ne_nil h1.ne_nil
      exact ⟨d, by simp, h1.digits d List.mem_cons_self⟩
  obtain ⟨c, hc, hd⟩ := hdigit
  rw [(either.exact (refers_iff.1 h)).1]
  exact ⟨c, List.mem_append_left _ hc, hd⟩

/-- A text is copied if no reference begins in it. -/
theorem Dialect.remap_append_of_none (d : Dialect) (chunks : List Chunk)
    (rest : Text) : ∀ {u : Text} (atStart : Bool),
    (∀ p c s, u = p ++ c :: s → d.recognise (c :: (s ++ rest)) = none) →
    d.remap chunks atStart (u ++ rest)
      = u ++ d.remap chunks (startsLine atStart u) rest
  | [], _, _ => rfl
  | c :: u, atStart, h => by
      have hu : ∀ p x s, u = p ++ x :: s →
          d.recognise (x :: (s ++ rest)) = none := by
        rintro p x s rfl
        exact h (c :: p) x s rfl
      have ih := remap_append_of_none d chunks rest (c = '\n') hu
      cases atStart with
      | false => rw [List.cons_append, remap_false, ih]; rfl
      | true =>
        rw [List.cons_append, remap_of_none d chunks (h [] c u rfl), ih]
        rfl

/-- Text without digits is copied. -/
theorem remap_of_no_digit {chunks : List Chunk} {u : Text}
    (h : ∀ c ∈ u, digit.contains c = false) (atStart : Bool) :
    either.remap chunks atStart u = u := by
  have hnone : ∀ p c s, u = p ++ c :: s →
      either.recognise (c :: (s ++ [])) = none := by
    rintro p c s rfl
    rw [Option.eq_none_iff_forall_ne_some, List.append_nil]
    rintro ⟨r, rest⟩ hs
    obtain ⟨x, hx, hd⟩ := (refers_iff.2 hs).exists_digit
    rw [h x (List.mem_append_right _ hx)] at hd
    cases hd
  simpa using either.remap_append_of_none chunks [] atStart hnone

/-! ## 3. The halves of a reference -/

/-- An LF that is in neither end of a text is in its middle. -/
theorem exists_cut_middle {start middle tail u v : Text}
    (h : start ++ (middle ++ tail) = u ++ '\n' :: v) (hs : '\n' ∉ start)
    (ht : '\n' ∉ tail) :
    ∃ m m', middle = m ++ '\n' :: m' ∧ u = start ++ m ∧ v = m' ++ tail := by
  have hu : ∃ m, u = start ++ m ∧ middle ++ tail = m ++ '\n' :: v := by
    rcases List.append_eq_append_iff.1 h with ⟨m, rfl, hm⟩ | ⟨m, rfl, hm⟩
    · exact ⟨m, rfl, hm⟩
    · cases m with
      | nil => exact ⟨[], by simp, hm.symm⟩
      | cons c m =>
        obtain ⟨rfl, -⟩ := List.cons.inj hm
        exact absurd (List.mem_append_right _ List.mem_cons_self) hs
  obtain ⟨m, rfl, hm⟩ := hu
  rcases List.append_eq_append_iff.1 hm with ⟨m', rfl, hm'⟩ | ⟨m', rfl, hm'⟩
  · exact absurd (by simp [hm']) ht
  · cases m' with
    | nil =>
      have htail : tail = '\n' :: v := hm'.symm
      exact absurd (by simp [htail]) ht
    | cons c m' =>
      obtain ⟨rfl, rfl⟩ := List.cons.inj hm'
      exact ⟨m, m', rfl, rfl, rfl⟩

/-- What stands before an LF in a labelled reference is the word, the colon
and white space, and what stands behind it is white space and the numbers. -/
theorem IsLabelled.exists_cut {r : Reference} (h : IsLabelled r) {u v : Text}
    (ht : r.text = u ++ '\n' :: v) :
    ∃ word ∈ severities, ∃ blanks blanks' first second,
      (∀ c ∈ blanks, blank.contains c = true) ∧
      (∀ c ∈ blanks', blank.contains c = true) ∧
      IsNumber first ∧ IsNumber second ∧
      u = word ++ ':' :: blanks ∧
      v = blanks' ++ (first ++ ':' :: second) := by
  obtain ⟨word, hw, blanks, first, second, hb, h1, h2, rfl⟩ := h
  obtain ⟨c, tail, rfl, -, hlf⟩ := exists_cons_of_mem_severities hw
  have hstart : '\n' ∉ c :: tail ++ [':'] := by simpa using hlf
  have htail : '\n' ∉ first ++ ':' :: second := by
    simp [h1.not_mem lf_not_digit, h2.not_mem lf_not_digit]
  have hmiddle : c :: tail ++ [':'] ++ (blanks ++ (first ++ ':' :: second))
      = u ++ '\n' :: v := by simpa using ht
  obtain ⟨m, m', rfl, rfl, rfl⟩ := exists_cut_middle hmiddle hstart htail
  rw [List.forall_mem_append, List.forall_mem_cons] at hb
  exact ⟨_, hw, m, m', first, second, hb.1, hb.2.2, h1, h2, by simp, rfl⟩

/-- A half behind an LF begins with white space or a digit, and a half before
one begins with a letter. -/
theorem IsLabelled.exists_heads {r : Reference} (h : IsLabelled r)
    {u v : Text} (ht : r.text = u ++ '\n' :: v) :
    (∃ c tail, u = c :: tail ∧ (c = 'E' ∨ c = 'W')) ∧
      ∃ c tail, v = c :: tail ∧ c ≠ 'E' ∧ c ≠ 'W' := by
  obtain ⟨word, hw, blanks, blanks', first, second, -, hb, h1, -, rfl, rfl⟩ :=
    h.exists_cut ht
  constructor
  · obtain ⟨c, tail, rfl, hc⟩ := exists_letter_of_mem_severities hw
    exact ⟨c, _, rfl, hc⟩
  · cases blanks' with
    | nil =>
      obtain ⟨d, tail, rfl⟩ := List.exists_cons_of_ne_nil h1.ne_nil
      exact ⟨d, _, rfl, ne_letter (.inr (h1.digits d List.mem_cons_self))⟩
    | cons c blanks' =>
      exact ⟨c, _, rfl, ne_letter (.inl (hb c List.mem_cons_self))⟩

theorem Straddles.colon_mem {chunks : List Chunk} {atStart : Bool}
    {a b : Text} (h : Straddles chunks atStart a b) : ':' ∈ b := by
  cases h with
  | across _ hr ht _ _ =>
    obtain ⟨_, -, _, _, _, _, -, -, -, -, -, rfl⟩ := hr.exists_cut ht
    simp

/-- The words hold no digit. -/
theorem digit_contains_of_mem_severities {word : Text}
    (h : word ∈ severities) : ∀ c ∈ word, digit.contains c = false := by
  have hall : severities.all (·.all (!digit.contains ·)) = true := by decide
  intro c hc
  have hword := List.all_eq_true.1 hall word h
  simpa using List.all_eq_true.1 hword c hc

section Halves

variable {chunks : List Chunk} {r : Reference} {u v : Text}
  (h : IsLabelled r) (ht : r.text = u ++ '\n' :: v)

include h ht

/-- The first half of a reference is not touched without the other. -/
theorem remap_first_half (atStart : Bool) :
    either.remap chunks atStart u = u := by
  obtain ⟨word, hw, blanks, _, _, _, hb, -, -, -, rfl, -⟩ := h.exists_cut ht
  have hword := digit_contains_of_mem_severities hw
  have hblanks : ∀ c ∈ blanks, digit.contains c = false := by
    intro c hc
    by_contra hd
    have hno := blank_eq_false_of_digit (Bool.not_eq_false _ ▸ hd)
    rw [hb c hc] at hno
    cases hno
  refine remap_of_no_digit (List.forall_mem_append.2 ⟨hword, ?_⟩) atStart
  exact List.forall_mem_cons.2 ⟨by decide, hblanks⟩

/-- The second half of a reference is not touched without the first. -/
theorem remap_second_half (rest : Text) (atStart : Bool) :
    either.remap chunks atStart (v ++ rest)
      = v ++ either.remap chunks false rest := by
  obtain ⟨_, -, _, blanks, first, second, -, hb, h1, h2, -, rfl⟩ :=
    h.exists_cut ht
  have hnot : ∀ c, blank.contains c = false → digit.contains c = false →
      c ∉ blanks ++ first := by
    intro c hcb hcd hm
    rcases List.mem_append.1 hm with hm | hm
    · rw [hb c hm] at hcb
      cases hcb
    · exact h1.not_mem hcd hm
  -- Up to the colon a labelled reference would begin with a letter, and a
  -- parenthesized one would have a parenthesis before the colon.
  have hnone : ∀ p c s, blanks ++ first = p ++ c :: s →
      either.recognise (c :: (s ++ ':' :: (second ++ rest))) = none := by
    intro p c s hp
    have hc : ∀ x ∈ c :: s, x ∈ blanks ++ first := by
      intro x hx
      rw [hp]
      exact List.mem_append_right p hx
    refine Option.or_eq_none_iff.2 ⟨labelled?_cons_eq_none ?_ ?_, ?_⟩
    · rintro rfl
      exact hnot 'E' (by decide) (by decide) (hc _ List.mem_cons_self)
    · rintro rfl
      exact hnot 'W' (by decide) (by decide) (hc _ List.mem_cons_self)
    · exact parenthesized?_append_colon_eq_none
        (fun hm => hnot '(' (by decide) (by decide) (hc _ hm)) _
  have hcolon : either.recognise (':' :: second ++ rest) = none :=
    either_cons_eq_none _ (by decide) (by decide) (by decide)
  have hlf : '\n' ∉ ':' :: second := by
    simp [h2.not_mem lf_not_digit]
  have hcopy := either.remap_append_of_none chunks (':' :: second ++ rest)
    atStart hnone
  rw [either.remap_cons_append ':' second rest hcolon hlf] at hcopy
  simpa using hcopy

end Halves

/-! ## 4. What is recognised in front of an LF -/

theorem refers_iff_spelled {t rest : Text} {r : Reference} :
    Refers t r rest ↔ t = r.text ++ rest ∧
      (IsLabelled r ∧ NotNext digit.contains rest ∨ IsParenthesized r) := by
  constructor
  · rintro (⟨h, hn⟩ | h)
    · exact ⟨rfl, .inl ⟨h, hn⟩⟩
    · exact ⟨rfl, .inr h⟩
  · rintro ⟨rfl, ⟨h, hn⟩ | h⟩
    · exact .labelled h hn
    · exact .parenthesized h

/-- No number goes on behind an LF. -/
theorem notNext_digit_append_lf {rest b : Text} :
    NotNext digit.contains (rest ++ '\n' :: b) ↔
      NotNext digit.contains rest := by
  cases rest with
  | nil => exact ⟨fun _ => nofun, fun _ => notNext_digit_cons lf_not_digit⟩
  | cons c rest => exact Iff.rfl

/-- What is recognised in a text is recognised with an LF behind it. -/
theorem Refers.append_lf {a rest : Text} {r : Reference}
    (h : Refers a r rest) (b : Text) :
    Refers (a ++ '\n' :: b) r (rest ++ '\n' :: b) := by
  obtain ⟨rfl, hs⟩ := refers_iff_spelled.1 h
  refine refers_iff_spelled.2 ⟨List.append_assoc _ _ _, hs.imp_left ?_⟩
  exact And.imp_right notNext_digit_append_lf.2

/-- What is recognised in front of an LF ends before it, or it is a labelled
reference that reaches over it. -/
theorem Refers.before_or_across {a b after : Text} {r : Reference}
    (h : Refers (a ++ '\n' :: b) r after) :
    (∃ rest, Refers a r rest) ∨
      ∃ v, IsLabelled r ∧ r.text = a ++ '\n' :: v ∧ b = v ++ after ∧
        NotNext digit.contains after := by
  obtain ⟨ht, hs⟩ := refers_iff_spelled.1 h
  rcases List.append_eq_append_iff.1 ht with ⟨m, hr, hm⟩ | ⟨m, rfl, hm⟩
  · cases m with
    | nil =>
      rw [List.append_nil] at hr
      refine .inl ⟨[], refers_iff_spelled.2 ⟨?_, hs.imp_left ?_⟩⟩
      · rw [hr, List.append_nil]
      · exact And.imp_right fun _ => nofun
    | cons c v =>
      obtain ⟨rfl, rfl⟩ := List.cons.inj hm
      rcases hs with ⟨hl, hn⟩ | hp
      · exact .inr ⟨v, hl, hr, rfl, hn⟩
      · exact absurd (by simp [hr]) hp.lf_not_mem
  · refine .inl ⟨m, refers_iff_spelled.2 ⟨rfl, hs.imp_left ?_⟩⟩
    rw [hm]
    exact And.imp_right notNext_digit_append_lf.1

/-! ## 5. The two sides of an LF -/

/-- A text can be cut at an LF, if no reference that is located straddles
it. -/
theorem remap_append_lf {chunks : List Chunk} (b : Text) (atStart : Bool)
    (a : Text) : ¬ Straddles chunks atStart a b →
    either.remap chunks atStart (a ++ '\n' :: b)
      = either.remap chunks atStart a ++ '\n' :: either.remap chunks true b := by
  induction atStart, a using either.scan_induct with
  | nil atStart =>
    intro _
    rw [List.nil_append, Dialect.remap_nil, List.nil_append]
    cases atStart with
    | false => rw [Dialect.remap_false, decide_eq_true rfl]
    | true =>
      have hn : either.recognise ('\n' :: b) = none :=
        either_cons_eq_none b lf_not_digit (by decide) (by decide)
      rw [Dialect.remap_of_none _ _ hn, decide_eq_true rfl]
  | inLine c rest ih =>
    intro h
    have ih := ih fun hs => h (hs.append (s := [c]))
    rw [List.cons_append, Dialect.remap_false, Dialect.remap_false, ih,
      List.cons_append]
  | other c rest hn ih =>
    intro h
    have ih := ih fun hs => h (hs.append (s := [c]))
    cases hs : either.recognise (c :: rest ++ '\n' :: b) with
    | none =>
      rw [List.cons_append] at hs ⊢
      rw [Dialect.remap_of_none _ _ hs, Dialect.remap_of_none _ _ hn, ih,
        List.cons_append]
    | some found =>
      obtain ⟨r, after⟩ := found
      have hr := refers_iff.2 hs
      obtain ⟨x, hx⟩ | ⟨v, hl, ht, rfl, hafter⟩ := hr.before_or_across
      · rw [refers_iff.1 hx] at hn
        cases hn
      · -- The reference is not located, so it is kept, and so are its halves.
        have hkept : ∀ file line, ¬ Locates (.unbounded chunks) r.number file line :=
          fun file line hloc => h (.of_start rfl hl ht hafter hloc)
        rw [Dialect.remap_of_some _ _ hs,
          remapped_of_not_locates hr.number_ne_nil hkept, ht,
          remap_first_half hl ht, remap_second_half hl ht, List.append_assoc,
          List.cons_append (a := '\n')]
  | reference t r rest hs ih =>
    intro h
    have hr := refers_iff.2 hs
    have hlf := refers_iff.1 (hr.append_lf b)
    have ih := ih fun hx => h ?_
    · rw [Dialect.remap_of_some _ _ hs, Dialect.remap_of_some _ _ hlf, ih,
        List.append_assoc]
    · rw [(either.exact hs).1]
      exact hx.of_false.append

/-- No reference straddles an LF in front of a letter. -/
theorem not_straddles_letter {chunks : List Chunk} {atStart : Bool} {a : Text}
    {c : Char} (hc : c = 'E' ∨ c = 'W') (t : Text) :
    ¬ Straddles chunks atStart a (c :: t) := by
  intro h
  generalize hb : c :: t = b at h
  cases h with
  | across _ hr ht _ _ =>
    obtain ⟨-, d, tail, rfl, hE, hW⟩ := hr.exists_heads ht
    obtain ⟨rfl, -⟩ := List.cons.inj hb
    rcases hc with rfl | rfl
    · exact hE rfl
    · exact hW rfl

/-- What stands in front of a letter at the beginning of a line can be
remapped apart. -/
theorem exists_remap_append_letter (chunks : List Chunk) {start : Text}
    (h : startsLine true start = true) :
    ∃ before, ∀ c t, c = 'E' ∨ c = 'W' →
      either.remap chunks true (start ++ c :: t)
        = before ++ either.remap chunks true (c :: t) := by
  rcases List.eq_nil_or_concat start with rfl | ⟨s, x, rfl⟩
  · exact ⟨[], fun _ _ _ => rfl⟩
  · rw [List.concat_eq_append, startsLine_append_singleton,
      decide_eq_true_iff] at h
    refine ⟨either.remap chunks true s ++ ['\n'], fun c t hc => ?_⟩
    have hn : ¬ Straddles chunks true s (c :: t) := not_straddles_letter hc t
    simpa [h] using remap_append_lf (c :: t) true s hn

/-! ## 6. Line ends that are lost -/

section Counts

variable {chunks : List Chunk} (hf : ∀ c ∈ chunks, '\n' ∉ c.file)

include hf

/-- No line end is in what takes the place of a reference. -/
theorem lf_not_mem_remapped {t rest : Text} {r : Reference}
    (h : Refers t r rest) {file : Path} {line : Nat}
    (hl : Locates (.unbounded chunks) r.number file line) : '\n' ∉ r.remapped chunks := by
  have hfile : '\n' ∉ file := oneLined_unbounded hf _ _ hl.2.2
  have hlabel : '\n' ∉ r.label := by
    cases h with
    | labelled h _ =>
      obtain ⟨word, hw, _, _, _, -, -, -, rfl⟩ := h
      obtain ⟨c, tail, rfl, -, hlf⟩ := exists_cons_of_mem_severities hw
      simpa using hlf
    | parenthesized h =>
      obtain ⟨_, _, -, -, rfl⟩ := h
      exact List.not_mem_nil
  rw [remapped_of_locates h.number_ne_nil hl]
  simp [hlabel, hfile, Text.Decimal.lf_not_mem_write]

/-- Remapping adds no line ends. -/
theorem lineCount_remap_either_le (atStart : Bool) (t : Text) :
    Text.lineCount (either.remap chunks atStart t) ≤ Text.lineCount t := by
  induction atStart, t using either.scan_induct with
  | nil => simp
  | inLine c rest ih =>
    rw [Dialect.remap_false, Text.lineCount, Text.lineCount,
      List.count_cons, List.count_cons]
    exact Nat.add_le_add_right ih _
  | other c rest hn ih =>
    rw [Dialect.remap_of_none _ _ hn, Text.lineCount, Text.lineCount,
      List.count_cons, List.count_cons]
    exact Nat.add_le_add_right ih _
  | reference t r rest hs ih =>
    have hr := refers_iff.2 hs
    have hcount : (r.remapped chunks).count '\n' ≤ r.text.count '\n' := by
      by_cases hl : ∃ file line, Locates (.unbounded chunks) r.number file line
      · obtain ⟨file, line, hl⟩ := hl
        rw [List.count_eq_zero.2 (lf_not_mem_remapped hf hr hl)]
        exact Nat.zero_le _
      · rw [remapped_of_not_locates hr.number_ne_nil
          fun file line h => hl ⟨file, line, h⟩]
    rw [Dialect.remap_of_some _ _ hs, (either.exact hs).1, Text.lineCount,
      Text.lineCount, List.count_append, List.count_append]
    exact Nat.add_le_add hcount ih

/-- A line end that is straddled is lost. -/
theorem lineCount_remap_lt_of_straddles {a b : Text}
    (h : Straddles chunks true a b) :
    Text.lineCount (either.remap chunks true (a ++ '\n' :: b))
      < Text.lineCount
        (either.remap chunks true a ++ '\n' :: either.remap chunks true b) := by
  cases h with
  | @across start u v rest r file line hs hr ht hn hl =>
    obtain ⟨⟨c, tail, hu, hc⟩, -⟩ := hr.exists_heads ht
    obtain ⟨before, hbefore⟩ := exists_remap_append_letter chunks hs
    have href : Refers (r.text ++ rest) r rest := .labelled hr hn
    have hwhole : start ++ u ++ '\n' :: (v ++ rest)
        = start ++ (r.text ++ rest) := by simp [ht]
    have hletter : ∃ t, r.text ++ rest = c :: t := by
      rw [ht, hu]
      exact ⟨_, rfl⟩
    obtain ⟨t, ht'⟩ := hletter
    rw [hwhole, ht', hbefore c t hc, ← ht',
      Dialect.remap_of_some _ _ (refers_iff.1 href), hu, hbefore c tail hc,
      ← hu, remap_first_half hr ht, remap_second_half hr ht]
    have hzero := List.count_eq_zero.2 (lf_not_mem_remapped hf href hl)
    simp only [Text.lineCount, List.count_append, List.count_cons_self, hzero]
    omega

end Counts

/-! ## 7. The lines of a log -/

theorem splitOn_of_lf_not_mem {t : Text} (h : '\n' ∉ t) :
    t.splitOn '\n' = [t] := by
  refine List.splitOnP_eq_singleton fun c hc => ?_
  exact beq_false_of_ne fun he => h (he ▸ hc)

theorem splitOn_append_lf (s t : Text) :
    (s ++ '\n' :: t).splitOn '\n' = s.splitOn '\n' ++ t.splitOn '\n' :=
  List.splitOnP_append_cons s t (beq_self_eq_true '\n')

theorem length_splitOn_lf (t : Text) :
    (t.splitOn '\n').length = Text.lineCount t + 1 := by
  induction t with
  | nil => rfl
  | cons c t ih =>
    rw [List.splitOn] at ih ⊢
    rw [List.splitOnP_cons_eq_if_modifyHead, Text.lineCount, List.count_cons]
    split
    · rw [List.length_cons, ih, Text.lineCount]
    · rw [List.length_modifyHead, ih, Text.lineCount, Nat.add_zero]

/-- No reference that is located reaches from one line to another. -/
def Unbroken (chunks : List Chunk) (log : Text) : Prop :=
  ∀ a b, log = a ++ '\n' :: b → ¬ Straddles chunks true a b

theorem Unbroken.of_append {chunks : List Chunk} {s t : Text}
    (h : Unbroken chunks (s ++ '\n' :: t)) : Unbroken chunks t := by
  rintro a b rfl hs
  have hline : startsLine true (s ++ ['\n']) = true :=
    startsLine_append_singleton true s '\n'
  have hs : Straddles chunks (startsLine true (s ++ ['\n'])) a b := by
    rwa [hline]
  exact h _ b (by simp) hs.append

section Lines

variable {chunks : List Chunk} (hf : ∀ c ∈ chunks, '\n' ∉ c.file)

include hf

theorem remap_append_lf_iff (a b : Text) :
    remap chunks (a ++ '\n' :: b)
        = remap chunks a ++ '\n' :: remap chunks b ↔
      ¬ Straddles chunks true a b := by
  simp only [remap_eq_remap_either hf]
  constructor
  · intro he hs
    have hlt := lineCount_remap_lt_of_straddles hf hs
    rw [he] at hlt
    exact Nat.lt_irrefl _ hlt
  · exact remap_append_lf b true a

theorem lineCount_remap_le (log : Text) :
    Text.lineCount (remap chunks log) ≤ Text.lineCount log := by
  rw [remap_eq_remap_either hf]
  exact lineCount_remap_either_le hf true log

/-- A line of a log is one line when it is remapped. -/
theorem lf_not_mem_remap {line : Text} (h : '\n' ∉ line) :
    '\n' ∉ remap chunks line := by
  have hle := lineCount_remap_le hf line
  rw [Text.lineCount, Text.lineCount, List.count_eq_zero.2 h] at hle
  exact List.count_eq_zero.1 (Nat.le_zero.1 hle)

/-- A log loses line ends if it is broken. -/
theorem unbroken_of_lineCount_remap_eq {log : Text}
    (h : Text.lineCount (remap chunks log) = Text.lineCount log) :
    Unbroken chunks log := by
  rintro a b rfl hs
  have hlt := lineCount_remap_lt_of_straddles hf hs
  simp only [← remap_eq_remap_either hf] at hlt
  have ha := lineCount_remap_le hf a
  have hb := lineCount_remap_le hf b
  simp only [Text.lineCount, List.count_append, List.count_cons_self]
    at h hlt ha hb
  omega

/-- An unbroken log is remapped one line after another. -/
theorem splitOn_remap (log : Text) (hu : Unbroken chunks log) :
    (remap chunks log).splitOn '\n'
      = (log.splitOn '\n').map (remap chunks) := by
  by_cases hlf : '\n' ∈ log
  · obtain ⟨line, rest, rfl, hline⟩ := List.eq_append_cons_of_mem hlf
    have ih := splitOn_remap rest hu.of_append
    rw [(remap_append_lf_iff hf line rest).2 (hu line rest rfl),
      splitOn_append_lf, splitOn_append_lf, List.map_append, ih,
      splitOn_of_lf_not_mem hline,
      splitOn_of_lf_not_mem (lf_not_mem_remap hf hline)]
    rfl
  · rw [splitOn_of_lf_not_mem hlf,
      splitOn_of_lf_not_mem (lf_not_mem_remap hf hlf)]
    rfl
termination_by log.length

end Lines

/-- **Line by line, unless a reference is broken.** Where the numbers of the
lines of the files fit a word, every log is remapped on words, with the
outcome that `remap` gives. The two sides of an LF can be remapped apart
exactly if no reference that is located straddles it. So the lines of a
remapped log are those of the log, each remapped on its own, exactly if the
log is unbroken, and exactly then there are as many; otherwise there are
fewer. -/
theorem remap_line_by_line {chunks : List Chunk}
    (hf : ∀ c ∈ chunks, '\n' ∉ c.file) (hw : Chunk.FitsWord chunks) :
    (∀ log, remap? (Chunk.locateByCount? chunks) log
      = some (remap chunks log)) ∧
    (∀ a b, remap chunks (a ++ '\n' :: b)
        = remap chunks a ++ '\n' :: remap chunks b ↔
      ¬ Straddles chunks true a b) ∧
    ∀ log,
      ((remap chunks log).splitOn '\n'
          = (log.splitOn '\n').map (remap chunks) ↔
        Unbroken chunks log) ∧
      (Text.lineCount (remap chunks log) = Text.lineCount log ↔
        Unbroken chunks log) ∧
      Text.lineCount (remap chunks log) ≤ Text.lineCount log := by
  have hcount : ∀ log, (remap chunks log).splitOn '\n'
      = (log.splitOn '\n').map (remap chunks) →
      Text.lineCount (remap chunks log) = Text.lineCount log := by
    intro log h
    have hlen := congrArg List.length h
    rw [List.length_map, length_splitOn_lf, length_splitOn_lf] at hlen
    exact Nat.succ.inj hlen
  refine ⟨remap?_locateByCount? hw, remap_append_lf_iff hf,
    fun log => ⟨⟨fun h => ?_, ?_⟩, ?_, ?_⟩⟩
  · exact unbroken_of_lineCount_remap_eq hf (hcount log h)
  · exact splitOn_remap hf log
  · exact ⟨unbroken_of_lineCount_remap_eq hf,
      fun hu => hcount log (splitOn_remap hf log hu)⟩
  · exact lineCount_remap_le hf log

/-- The flattened text is the one line of the file `f`. -/
def oneLine : List Chunk := [⟨['x', '\n'], ['f'], 0⟩]

/-- A reference to that line, broken behind the colon. -/
theorem straddles_oneLine :
    Straddles oneLine true "ERROR:".toList "0:1".toList := by
  have hnumber : ∀ c, digit.contains c = true → IsNumber [c] :=
    fun c h => ⟨nofun, List.forall_mem_singleton.2 h⟩
  have hr : IsLabelled ⟨"ERROR:\n0:1".toList, "ERROR: ".toList, ['1']⟩ :=
    ⟨"ERROR".toList, by decide, ['\n'], ['0'], ['1'],
      List.forall_mem_singleton.2 (by decide), hnumber '0' (by decide),
      hnumber '1' (by decide), rfl⟩
  have hl : Locates (.unbounded oneLine) ['1'] ['f'] 1 :=
    ⟨List.forall_mem_singleton.2 (by decide), by decide, by decide⟩
  have hs : Straddles oneLine true "ERROR:".toList ("0:1".toList ++ []) :=
    .of_start rfl hr rfl nofun hl
  exact hs

/-- Two lines with a reference each are remapped apart. A reference that is
broken over two lines makes one line of them. -/
theorem remap_line_by_line_oneLine :
    (∀ c ∈ oneLine, '\n' ∉ c.file) ∧ Chunk.FitsWord oneLine ∧
    remap? (Chunk.locateByCount? oneLine) "ERROR:\n0:1".toList
      = some (remap oneLine "ERROR:\n0:1".toList) ∧
    remap oneLine ("ERROR: 0:1".toList ++ '\n' :: "0(1)".toList)
      = remap oneLine "ERROR: 0:1".toList
        ++ '\n' :: remap oneLine "0(1)".toList ∧
    Text.lineCount (remap oneLine "ERROR:\n0:1".toList) = 0 := by
  have hf : ∀ c ∈ oneLine, '\n' ∉ c.file := by decide
  have hw : Chunk.FitsWord oneLine := by decide
  obtain ⟨hwords, hcut, hlog⟩ := remap_line_by_line hf hw
  have hcolon : ':' ∉ "0(1)".toList := by decide
  refine ⟨hf, hw, hwords _, (hcut _ _).2 fun hs => hcolon hs.colon_mem, ?_⟩
  · obtain ⟨-, hcount, hle⟩ := hlog "ERROR:\n0:1".toList
    have hlost : Text.lineCount (remap oneLine "ERROR:\n0:1".toList)
        ≠ Text.lineCount "ERROR:\n0:1".toList :=
      fun h => hcount.1 h _ _ rfl straddles_oneLine
    have hone : Text.lineCount "ERROR:\n0:1".toList = 1 := by decide
    omega

/-- Cut apart, the halves of the reference are kept. -/
theorem remap_ne_of_broken :
    (∀ c ∈ oneLine, '\n' ∉ c.file) ∧
    remap oneLine ("ERROR:".toList ++ '\n' :: "0:1".toList)
      ≠ remap oneLine "ERROR:".toList
        ++ '\n' :: remap oneLine "0:1".toList := by
  have hf : ∀ c ∈ oneLine, '\n' ∉ c.file := by decide
  refine ⟨hf, fun h => ?_⟩
  exact (remap_append_lf_iff hf _ _).1 h straddles_oneLine

end IncludeFlattener.CompilerLog
