/-
IncludeFlattener.Proofs.CompilerLog.Passes — two passes over a log come to
one pass over both spellings.

The log is gone through twice, and what is gone through the second time is
the outcome of the first. `remap?_eq_remap?_either` says that one pass would
do, because the two do not meet:

* a parenthesized reference lies in one line, and up to the next LF the first
  pass changes nothing behind the beginning of a line
  (`Dialect.exists_append_of_remap?_false`), so the second pass finds there
  what stood in the log;
* what the first pass writes holds no LF, as no file name does, and does not
  begin with a digit; what it keeps may hold LFs, but only before its first
  number, and that number is followed by a colon. So the second pass finds
  nothing in either (`remap?_parenthesized_remapped?`).

A file name with an LF in it would begin a line of its own, and that line
could be anything. Where an answer is missing there is no outcome, whichever
pass asks for it.
-/
import IncludeFlattener.Proofs.CompilerLog.Grammar
import IncludeFlattener.Proofs.CompilerLog.Words
namespace IncludeFlattener

theorem Text.Decimal.lf_not_mem_write (n : Nat) : '\n' ∉ write n := by
  intro hm
  have hd := (readFrom?_eq_some_iff.1 (readFrom?_write n)).1 _ hm
  exact absurd hd (by decide)

namespace Chunk

/-- A line is located in the file of a chunk. -/
theorem exists_file_of_locate {chunks : List Chunk} {n : Nat} {o : Origin}
    (h : locate chunks n = some o) : ∃ c ∈ chunks, c.file = o.1 := by
  have hn := (locate_isSome_iff chunks n).1 (by rw [h]; rfl)
  rw [locate_eq_getElem? chunks hn.1] at h
  obtain ⟨c, hc, ho⟩ := List.mem_flatMap.1 (List.mem_of_getElem? h)
  exact ⟨c, hc, (mem_places.1 ho).1.symm⟩

theorem exists_file_of_search? {chunks : List Chunk} {n first : Nat}
    {o : Origin} (h : search? n first chunks = some (some o)) :
    ∃ c ∈ chunks, c.file = o.1 := by
  induction chunks generalizing first with
  | nil => cases h
  | cons c rest ih =>
    rw [search?] at h
    split at h
    · simp only [bind, pure, Option.bind_eq_some_iff] at h
      obtain ⟨_, -, _, -, _, -, ho⟩ := h
      cases ho
      exact ⟨c, List.mem_cons_self, rfl⟩
    · obtain ⟨d, hd, hfile⟩ := ih h
      exact ⟨d, List.mem_cons_of_mem c hd, hfile⟩

end Chunk

namespace CompilerLog

open Text.CharSet (digit blank)

/-! ## 1. Where a reference can begin -/

theorem lf_not_digit : digit.contains '\n' = false := by decide

theorem IsNumber.not_mem {number : Text} (h : IsNumber number) {c : Char}
    (hc : digit.contains c = false) : c ∉ number := by
  intro hm
  rw [h.digits c hm] at hc
  cases hc

theorem IsParenthesized.lf_not_mem {r : Reference} (h : IsParenthesized r) :
    '\n' ∉ r.text := by
  obtain ⟨first, second, h1, h2, rfl⟩ := h
  simp [h1.not_mem lf_not_digit, h2.not_mem lf_not_digit]

/-- The words begin with a letter and lie in one line. -/
theorem exists_cons_of_mem_severities {word : Text} (h : word ∈ severities) :
    ∃ c tail, word = c :: tail ∧ digit.contains c = false ∧
      '\n' ∉ c :: tail := by
  simp only [severities, List.mem_cons, List.not_mem_nil, or_false] at h
  rcases h with rfl | rfl
  · exact ⟨'E', _, rfl, by decide, by decide⟩
  · exact ⟨'W', _, rfl, by decide, by decide⟩

/-- Nothing that does not begin with a digit is parenthesized. -/
theorem parenthesized?_cons_eq_none {c : Char} {t : Text}
    (h : digit.contains c = false) :
    parenthesized.recognise (c :: t) = none := by
  rw [Option.eq_none_iff_forall_ne_some]
  rintro ⟨r, rest⟩ hs
  obtain ⟨⟨first, second, h1, -, rfl⟩, ht⟩ := parenthesized?_eq_some_iff.1 hs
  obtain ⟨d, tail, rfl⟩ := List.exists_cons_of_ne_nil h1.ne_nil
  cases ht
  exact h1.not_mem h List.mem_cons_self

/-- Nothing with a colon before the first opening parenthesis is
parenthesized. -/
theorem parenthesized?_append_colon_eq_none {u : Text} (h : '(' ∉ u)
    (rest : Text) : parenthesized.recognise (u ++ ':' :: rest) = none := by
  rw [Option.eq_none_iff_forall_ne_some]
  rintro ⟨r, after⟩ hs
  obtain ⟨⟨first, second, h1, -, rfl⟩, ht⟩ := parenthesized?_eq_some_iff.1 hs
  rw [List.append_assoc, List.append_eq_append_iff] at ht
  obtain ⟨v, rfl, hv⟩ | ⟨v, rfl, hv⟩ := ht
  · -- The number would go on to the colon.
    cases v with
    | nil => cases hv
    | cons c v =>
      obtain ⟨rfl, -⟩ := List.cons.inj hv
      exact h1.not_mem (c := ':') (by decide) (by simp)
  · -- The number would end before the colon, at a parenthesis.
    cases v with
    | nil => cases hv
    | cons c v =>
      obtain ⟨rfl, -⟩ := List.cons.inj hv
      exact h (by simp)

/-- No text is labelled and parenthesized. -/
theorem labelled?_eq_none_of_parenthesized {r : Reference}
    (h : IsParenthesized r) (rest : Text) :
    labelled.recognise (r.text ++ rest) = none := by
  rw [Option.eq_none_iff_forall_ne_some]
  rintro ⟨r', rest'⟩ hs
  obtain ⟨⟨word, hw, blanks, first, second, -, -, -, rfl⟩, -, ht⟩ :=
    labelled?_eq_some_iff.1 hs
  obtain ⟨c, tail, rfl, hc, -⟩ := exists_cons_of_mem_severities hw
  have hp : parenthesized.recognise (r.text ++ rest) = some (r, rest) :=
    parenthesized?_eq_some_iff.2 ⟨h, rfl⟩
  rw [ht] at hp
  exact Option.some_ne_none _ (hp.symm.trans (parenthesized?_cons_eq_none hc))

/-- References of either spelling. -/
def either : Dialect where
  recognise t := (labelled.recognise t).or (parenthesized.recognise t)
  exact := by
    intro t r rest h
    rcases Option.or_eq_some_iff.1 h with h | ⟨-, h⟩
    · exact labelled.exact h
    · exact parenthesized.exact h

/-! ## 2. Names of one line -/

/-- No LF is in the name of a file that is answered. -/
def Lookup.OneLined (lookup : Lookup) : Prop :=
  ∀ n o, lookup n = some (some o) → '\n' ∉ o.1

theorem Lookup.OneLined.not_mem_of_answer? {lookup : Lookup}
    (hf : lookup.OneLined) {r : Reference} {o : Origin}
    (h : r.answer? lookup = some (some o)) : '\n' ∉ o.1 := by
  unfold Reference.answer? at h
  split at h
  · cases h
  · exact hf _ o h

section Names

variable {chunks : List Chunk} (hf : ∀ c ∈ chunks, '\n' ∉ c.file)

include hf

theorem oneLined_unbounded : (Lookup.unbounded chunks).OneLined := by
  intro n o h
  obtain ⟨c, hc, hfile⟩ := Chunk.exists_file_of_locate (Option.some.inj h)
  exact hfile ▸ hf c hc

theorem oneLined_locateByCount? :
    Lookup.OneLined (Chunk.locateByCount? chunks) := by
  intro n o h
  unfold Chunk.locateByCount? at h
  split at h
  · cases h
  · obtain ⟨c, hc, hfile⟩ := Chunk.exists_file_of_search? h
    exact hfile ▸ hf c hc

end Names

/-! ## 3. The second pass over what the first one wrote -/

section Passes

variable {lookup : Lookup}

/-- White space and a number with a colon behind it are copied, wherever
lines begin in the white space. -/
theorem remap?_parenthesized_blanks {blanks first : Text} (rest : Text)
    (hb : ∀ c ∈ blanks, blank.contains c = true) (h1 : IsNumber first)
    (atStart : Bool) :
    parenthesized.remap? lookup atStart (blanks ++ (first ++ ':' :: rest))
      = (parenthesized.remap? lookup false rest).map
        fun out => blanks ++ (first ++ ':' :: out) := by
  have hopen : '(' ∉ blanks ++ first := by
    intro hm
    rcases List.mem_append.1 hm with hm | hm
    · exact absurd (hb _ hm) (by decide)
    · exact h1.not_mem (by decide) hm
  have hn := parenthesized?_append_colon_eq_none hopen rest
  induction blanks generalizing atStart with
  | nil =>
    obtain ⟨c, tail, rfl⟩ := List.exists_cons_of_ne_nil h1.ne_nil
    have h := parenthesized.remap?_cons_append lookup c (tail ++ [':']) rest
      (by simpa using hn) (by simpa using h1.not_mem lf_not_digit) atStart
    simpa using h
  | cons c blanks ih =>
    obtain ⟨-, hb⟩ := List.forall_mem_cons.1 hb
    have hopen : '(' ∉ blanks ++ first :=
      fun hm => hopen (List.mem_cons_of_mem c hm)
    have ih := ih hb (c = '\n') hopen
      (parenthesized?_append_colon_eq_none hopen rest)
    rw [List.append_assoc, List.cons_append] at hn
    cases atStart with
    | false =>
      rw [List.cons_append, Dialect.remap?_false, ih, Option.map_map]
      rfl
    | true =>
      rw [List.cons_append, Dialect.remap?_of_none _ _ hn, ih, Option.map_map]
      rfl

/-- Nothing that the first pass wrote or kept is changed by the second. -/
theorem remap?_parenthesized_remapped? (hf : lookup.OneLined)
    {r : Reference} (h : IsLabelled r) {place : Text}
    (hp : r.remapped? lookup = some place) (atStart : Bool) (rest : Text) :
    parenthesized.remap? lookup atStart (place ++ rest)
      = (parenthesized.remap? lookup false rest).map (place ++ ·) := by
  obtain ⟨word, hw, blanks, first, second, hb, h1, h2, rfl⟩ := h
  obtain ⟨c, tail, rfl, hc, hlf⟩ := exists_cons_of_mem_severities hw
  obtain ⟨answer, ha, rfl⟩ := Option.map_eq_some_iff.1 hp
  cases answer with
  | some o =>
    obtain ⟨file, line⟩ := o
    have hfile : '\n' ∉ file := hf.not_mem_of_answer? ha
    have hplace : '\n' ∉ c :: (tail ++ [':', ' '] ++ file
        ++ '(' :: (Text.Decimal.write line ++ [')'])) := by
      simpa [hfile, Text.Decimal.lf_not_mem_write] using hlf
    have h := parenthesized.remap?_cons_append lookup c _ rest
      (parenthesized?_cons_eq_none hc) hplace atStart
    simpa using h
  | none =>
    have hword : '\n' ∉ c :: (tail ++ [':']) := by simpa using hlf
    have h := parenthesized.remap?_cons_append lookup c (tail ++ [':'])
      (blanks ++ (first ++ ':' :: (second ++ rest)))
      (parenthesized?_cons_eq_none hc) hword atStart
    rw [remap?_parenthesized_blanks _ hb h1,
      parenthesized.remap?_false_append lookup rest
        (h2.not_mem lf_not_digit), Option.map_map, Option.map_map] at h
    simpa [Function.comp_def] using h

/-! ## 4. Both passes -/

/-- The second pass recognises at the beginning of a line what it would have
recognised before the first one. -/
theorem parenthesized?_cons_remap?_labelled {c : Char} {rest out : Text}
    (hn : parenthesized.recognise (c :: rest) = none)
    (ho : labelled.remap? lookup (c = '\n') rest = some out) :
    parenthesized.recognise (c :: out) = none := by
  rw [Option.eq_none_iff_forall_ne_some]
  rintro ⟨r, after⟩ hs
  obtain ⟨hr, ht⟩ := parenthesized?_eq_some_iff.1 hs
  have hlf := hr.lf_not_mem
  cases htext : r.text with
  | nil => exact (parenthesized.exact hs).2 htext
  | cons x u =>
    rw [htext] at ht hlf
    obtain ⟨rfl, rfl⟩ := List.cons.inj ht
    obtain ⟨hc, hu⟩ := not_or.1 (mt List.mem_cons.2 hlf)
    rw [decide_eq_false (Ne.symm hc)] at ho
    obtain ⟨rest', rfl⟩ :=
      labelled.exists_append_of_remap?_false lookup ho hu
    have hp : parenthesized.recognise (c :: (u ++ rest')) = some (r, rest') :=
      parenthesized?_eq_some_iff.2 ⟨hr, by rw [htext]; rfl⟩
    rw [hp] at hn
    cases hn

/-- A parenthesized reference is left as it is by the first pass. -/
theorem remap?_labelled_of_parenthesized {r : Reference}
    (h : IsParenthesized r) (rest : Text) :
    labelled.remap? lookup true (r.text ++ rest)
      = (labelled.remap? lookup false rest).map (r.text ++ ·) := by
  have hn := labelled?_eq_none_of_parenthesized h rest
  have hlf := h.lf_not_mem
  have hp : parenthesized.recognise (r.text ++ rest) = some (r, rest) :=
    parenthesized?_eq_some_iff.2 ⟨h, rfl⟩
  obtain ⟨c, u, htext⟩ :=
    List.exists_cons_of_ne_nil (parenthesized.exact hp).2
  rw [htext] at hn hlf ⊢
  exact labelled.remap?_cons_append lookup c u rest hn hlf true

/-- Behind a text that the second pass copies, both passes go on as if it
did not stand there. -/
theorem bind_map_append {o : Option Text} {u : Text} {atStart start : Bool}
    (h : ∀ out ∈ o, parenthesized.remap? lookup atStart (u ++ out)
      = (parenthesized.remap? lookup start out).map (u ++ ·)) :
    (o.map (u ++ ·)).bind (parenthesized.remap? lookup atStart)
      = (o.bind (parenthesized.remap? lookup start)).map (u ++ ·) := by
  cases o with
  | none => rfl
  | some out => exact h out rfl

theorem remap?_remap?_labelled (hf : lookup.OneLined) (atStart : Bool)
    (t : Text) :
    (labelled.remap? lookup atStart t).bind
        (parenthesized.remap? lookup atStart)
      = either.remap? lookup atStart t := by
  induction atStart, t using either.scan_induct with
  | nil atStart => simp
  | inLine c rest ih =>
    rw [Dialect.remap?_false, Dialect.remap?_false, ← ih]
    exact bind_map_append (u := [c]) fun out _ =>
      parenthesized.remap?_false lookup c out
  | other c rest he ih =>
    obtain ⟨hl, hp⟩ := Option.or_eq_none_iff.1 he
    rw [Dialect.remap?_of_none _ _ hl, Dialect.remap?_of_none _ _ he, ← ih]
    exact bind_map_append (u := [c]) fun out ho =>
      parenthesized.remap?_of_none lookup
        (parenthesized?_cons_remap?_labelled hp ho)
  | reference t r rest he ih =>
    rw [Dialect.remap?_of_some _ _ he, ← ih]
    rcases Option.or_eq_some_iff.1 he with hl | ⟨-, hp⟩
    · rw [Dialect.remap?_of_some _ _ hl, Option.bind_assoc]
      exact Option.bind_congr fun place hplace =>
        bind_map_append fun out _ =>
          remap?_parenthesized_remapped? hf (labelled?_eq_some_iff.1 hl).1
            hplace true out
    · obtain ⟨hr, rfl⟩ := parenthesized?_eq_some_iff.1 hp
      have hagain : ∀ out, parenthesized.remap? lookup true (r.text ++ out)
          = (r.remapped? lookup).bind fun place =>
            (parenthesized.remap? lookup false out).map (place ++ ·) :=
        fun out => Dialect.remap?_of_some _ _
          (parenthesized?_eq_some_iff.2 ⟨hr, rfl⟩)
      rw [remap?_labelled_of_parenthesized hr, Option.bind_map]
      simp only [Function.comp_def, hagain]
      -- The first pass asks for the rest before the reference is asked for.
      rw [Option.bind_comm]
      simp only [Option.map_bind, Function.comp_def]

/-- Where file names hold no LF, remapping is one pass over both
spellings. -/
theorem remap?_eq_remap?_either (hf : lookup.OneLined) (log : Text) :
    remap? lookup log = either.remap? lookup true log :=
  remap?_remap?_labelled hf true log

/-- The same without words. -/
theorem remap_eq_remap_either {chunks : List Chunk}
    (hf : ∀ c ∈ chunks, '\n' ∉ c.file) (log : Text) :
    remap chunks log = either.remap chunks true log := by
  have h := remap?_eq_remap?_either (oneLined_unbounded hf) log
  rw [remap?_unbounded, Dialect.remap?_unbounded] at h
  exact Option.some.inj h

end Passes

end CompilerLog

end IncludeFlattener
