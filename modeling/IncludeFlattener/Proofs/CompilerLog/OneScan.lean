/-
IncludeFlattener.Proofs.CompilerLog.OneScan — a log is remapped by one scan
of it.

`Rewrites` is the scan, rule by rule: at the beginning of a line it takes a
reference of either spelling, and puts the file and its line there if the
number can be located, or keeps the reference if not; everything else it
copies, one character after another. It is said on the spellings alone
(`Refers`, `Locates`, `LocatesNone`). A text has one outcome or none, and for
the log that is what comes out of the two passes (`remap_rewrites_once`). That
two passes come to one is `remap?_eq_remap?_either`.

The scan asks the look-up that counts on words. Where this has no answer no
rule goes on, and the passes have no value. Where the numbers of the lines fit
a word there is always an outcome, which is the remapped log.

A scan goes on behind a reference in the middle of a line. So a reference that
holds line ends, such as `ERROR:` with the numbers on the next line, is taken
once, and what is put in its place is not looked at again.
-/
import IncludeFlattener.Proofs.CompilerLog.Passes
namespace IncludeFlattener.CompilerLog

open Text.CharSet (digit)

/-! ## 1. The scan -/

/-- The text begins with a reference of either spelling. -/
inductive Refers : Text → Reference → Text → Prop where
  | labelled {r : Reference} {rest : Text} (h : IsLabelled r)
      (hr : NotNext digit.contains rest) : Refers (r.text ++ rest) r rest
  | parenthesized {r : Reference} {rest : Text} (h : IsParenthesized r) :
      Refers (r.text ++ rest) r rest

/-- The digits are ASCII digits, their number fits a word, and the line with
this number is located. -/
def Locates (lookup : Lookup) (number : Text) (file : Path)
    (line : Nat) : Prop :=
  (∀ c ∈ number, '0' ≤ c ∧ c ≤ '9') ∧
    Nat.ofDigitChars 10 number 0 < UInt64.size ∧
    lookup (Nat.ofDigitChars 10 number 0) = some (some (file, line))

/-- No line has the number, if it is one in ASCII digits that fits a word. -/
def LocatesNone (lookup : Lookup) (number : Text) : Prop :=
  (∀ c ∈ number, '0' ≤ c ∧ c ≤ '9') →
    Nat.ofDigitChars 10 number 0 < UInt64.size →
    lookup (Nat.ofDigitChars 10 number 0) = some none

/-- What one scan makes of a text; `atStart` tells whether the text begins
where a line begins. -/
inductive Rewrites (lookup : Lookup) : Bool → Text → Text → Prop where
  | nil {atStart : Bool} : Rewrites lookup atStart [] []
  | located {t rest out : Text} {r : Reference} {file : Path} {line : Nat}
      (hr : Refers t r rest) (hl : Locates lookup r.number file line)
      (ho : Rewrites lookup false rest out) :
      Rewrites lookup true t
        (r.label ++ file ++ '(' :: (Text.Decimal.write line ++ [')']) ++ out)
  | kept {t rest out : Text} {r : Reference} (hr : Refers t r rest)
      (hl : LocatesNone lookup r.number)
      (ho : Rewrites lookup false rest out) :
      Rewrites lookup true t (r.text ++ out)
  | copied {atStart : Bool} {c : Char} {rest out : Text}
      (hr : atStart = true → ∀ r after, ¬ Refers (c :: rest) r after)
      (ho : Rewrites lookup (c = '\n') rest out) :
      Rewrites lookup atStart (c :: rest) (c :: out)

/-! ## 2. The scan and the pass over both spellings -/

theorem refers_iff {t rest : Text} {r : Reference} :
    Refers t r rest ↔ either.recognise t = some (r, rest) := by
  constructor
  · rintro (⟨h, hr⟩ | h)
    · exact Option.or_eq_some_iff.2
        (.inl (labelled?_eq_some_iff.2 ⟨h, hr, rfl⟩))
    · exact Option.or_eq_some_iff.2
        (.inr ⟨labelled?_eq_none_of_parenthesized h rest,
          parenthesized?_eq_some_iff.2 ⟨h, rfl⟩⟩)
  · intro h
    rcases Option.or_eq_some_iff.1 h with h | ⟨-, h⟩
    · obtain ⟨hl, hr, rfl⟩ := labelled?_eq_some_iff.1 h
      exact .labelled hl hr
    · obtain ⟨hp, rfl⟩ := parenthesized?_eq_some_iff.1 h
      exact .parenthesized hp

theorem Refers.number_ne_nil {t rest : Text} {r : Reference}
    (h : Refers t r rest) : r.number ≠ [] := by
  cases h with
  | labelled h _ =>
    obtain ⟨_, -, _, _, _, -, -, h2, rfl⟩ := h
    exact h2.ne_nil
  | parenthesized h =>
    obtain ⟨_, _, -, h2, rfl⟩ := h
    exact h2.ne_nil

section Scan

variable {lookup : Lookup} {r : Reference} (hn : r.number ≠ [])

include hn

theorem answer?_eq_some_some_iff {file : Path} {line : Nat} :
    r.answer? lookup = some (some (file, line)) ↔
      Locates lookup r.number file line := by
  have hread := @Text.Decimal.read?_eq_some_iff lineBound
  unfold Reference.answer?
  constructor
  · intro h
    split at h
    · cases h
    · rename_i v hv
      obtain ⟨-, hd, rfl, hb⟩ := hread.1 hv
      exact ⟨hd, hb, h⟩
  · rintro ⟨hd, hb, hl⟩
    rw [hread.2 ⟨hn, hd, rfl, hb⟩]
    exact hl

theorem answer?_eq_some_none_iff :
    r.answer? lookup = some none ↔ LocatesNone lookup r.number := by
  have hread := @Text.Decimal.read?_eq_some_iff lineBound
  unfold Reference.answer?
  constructor
  · intro h hd hb
    rw [hread.2 ⟨hn, hd, rfl, hb⟩] at h
    exact h
  · intro h
    split
    · rfl
    · rename_i v hv
      obtain ⟨-, hd, rfl, hb⟩ := hread.1 hv
      exact h hd hb

theorem remapped?_of_locates {file : Path} {line : Nat}
    (h : Locates lookup r.number file line) :
    r.remapped? lookup = some
      (r.label ++ file ++ '(' :: (Text.Decimal.write line ++ [')'])) := by
  rw [Reference.remapped?, (answer?_eq_some_some_iff hn).2 h]
  rfl

theorem remapped?_of_locatesNone (h : LocatesNone lookup r.number) :
    r.remapped? lookup = some r.text := by
  rw [Reference.remapped?, (answer?_eq_some_none_iff hn).2 h]
  rfl

omit hn

/-- At the beginning of a line, a reference gives way to its place. -/
theorem Rewrites.of_refers {t rest place out : Text} (hr : Refers t r rest)
    (hp : r.remapped? lookup = some place)
    (ho : Rewrites lookup false rest out) :
    Rewrites lookup true t (place ++ out) := by
  have hn := hr.number_ne_nil
  obtain ⟨answer, ha, rfl⟩ := Option.map_eq_some_iff.1 hp
  cases answer with
  | some o => exact .located hr ((answer?_eq_some_some_iff hn).1 ha) ho
  | none => exact .kept hr ((answer?_eq_some_none_iff hn).1 ha) ho

/-- The scan has no other outcome than the pass. -/
theorem Rewrites.remap?_eq {atStart : Bool} {t out : Text}
    (h : Rewrites lookup atStart t out) :
    either.remap? lookup atStart t = some out := by
  induction h with
  | nil => rw [Dialect.remap?_nil]
  | located hr hl _ ih =>
    rw [Dialect.remap?_of_some _ _ (refers_iff.1 hr),
      remapped?_of_locates hr.number_ne_nil hl, ih]
    rfl
  | kept hr hl _ ih =>
    rw [Dialect.remap?_of_some _ _ (refers_iff.1 hr),
      remapped?_of_locatesNone hr.number_ne_nil hl, ih]
    rfl
  | @copied atStart c rest out hr _ ih =>
    cases atStart with
    | false => rw [Dialect.remap?_false, ih, Option.map_some]
    | true =>
      have hn : either.recognise (c :: rest) = none := by
        rw [Option.eq_none_iff_forall_ne_some]
        rintro ⟨r, after⟩ hs
        exact hr rfl r after (refers_iff.2 hs)
      rw [Dialect.remap?_of_none _ _ hn, ih, Option.map_some]

/-- What comes out of the pass is an outcome of the scan. -/
theorem rewrites_of_remap? (atStart : Bool) (t : Text) : ∀ {out : Text},
    either.remap? lookup atStart t = some out →
      Rewrites lookup atStart t out := by
  induction atStart, t using either.scan_induct with
  | nil atStart =>
    intro out h
    rw [Dialect.remap?_nil] at h
    cases h
    exact .nil
  | inLine c rest ih =>
    intro out h
    rw [Dialect.remap?_false] at h
    obtain ⟨out, ho, rfl⟩ := Option.map_eq_some_iff.1 h
    exact .copied nofun (ih ho)
  | other c rest hs ih =>
    intro out h
    rw [Dialect.remap?_of_none _ _ hs] at h
    obtain ⟨out, ho, rfl⟩ := Option.map_eq_some_iff.1 h
    refine .copied (fun _ r after hr => ?_) (ih ho)
    rw [refers_iff.1 hr] at hs
    cases hs
  | reference t r rest hs ih =>
    intro out h
    rw [Dialect.remap?_of_some _ _ hs] at h
    obtain ⟨place, hp, h⟩ := Option.bind_eq_some_iff.1 h
    obtain ⟨out, ho, rfl⟩ := Option.map_eq_some_iff.1 h
    exact .of_refers (refers_iff.2 hs) hp (ih ho)

end Scan

/-! ## 3. The log -/

/-- **References are rewritten once.** Where file names hold no LF, what
comes out of the two passes on words is the one outcome of one scan of the
log; the two have none if a line is asked for whose number does not fit a
word. If the numbers of all lines fit, the outcome is the remapped log.
Nothing that stands in the place of a labelled reference is recognised
again. -/
theorem remap_rewrites_once {chunks : List Chunk}
    (hf : ∀ c ∈ chunks, '\n' ∉ c.file) (log : Text) :
    (∀ out, Rewrites (Chunk.locateByCount? chunks) true log out ↔
      remap? (Chunk.locateByCount? chunks) log = some out) ∧
    (Chunk.FitsWord chunks →
      ∀ out, Rewrites (Chunk.locateByCount? chunks) true log out ↔
        out = remap chunks log) ∧
    ∀ r place rest atStart, IsLabelled r →
      r.remapped? (Chunk.locateByCount? chunks) = some place →
      parenthesized.remap? (Chunk.locateByCount? chunks) atStart
          (place ++ rest)
        = (parenthesized.remap? (Chunk.locateByCount? chunks) false rest).map
          (place ++ ·) := by
  have hone := oneLined_locateByCount? hf
  have hscan : ∀ out, Rewrites (Chunk.locateByCount? chunks) true log out ↔
      remap? (Chunk.locateByCount? chunks) log = some out := by
    intro out
    rw [remap?_eq_remap?_either hone]
    exact ⟨Rewrites.remap?_eq, rewrites_of_remap? true log⟩
  refine ⟨hscan, fun hw out => ?_, ?_⟩
  · rw [hscan, remap?_locateByCount? hw, Option.some.injEq, eq_comm]
  · intro r place rest atStart hr hp
    exact remap?_parenthesized_remapped? hone hr hp atStart rest

/-- A word can number the lines before this one, but not this one. -/
example : Reference.remapped? ⟨"0(1)".toList, [], ['1']⟩
    (Chunk.locateByCount? [⟨['x', '\n'], ['f'], 2 ^ 64 - 1⟩]) = none := by
  decide

/-- Two chunks; the name of the second file looks like a reference. -/
def numberedChunks : List Chunk :=
  [⟨['x', '\n'], ['a'], 4⟩, ⟨['y', '\n'], ['0', '(', '1', ')'], 0⟩]

/-- `ERROR:` is on one line of the log and its numbers are on the next; the
place that is put there is not taken for a reference. -/
theorem remap_rewrites_once_numbered :
    (∀ c ∈ numberedChunks, '\n' ∉ c.file) ∧ Chunk.FitsWord numberedChunks ∧
    "ERROR: 0(1)(1)!\n0(1)(1)".toList
      = remap numberedChunks "ERROR:\n0:2!\n0(2)".toList := by
  have hf : ∀ c ∈ numberedChunks, '\n' ∉ c.file := by decide
  have hzero : IsNumber ['0'] :=
    ⟨nofun, List.forall_mem_singleton.2 (by decide)⟩
  have htwo : IsNumber ['2'] :=
    ⟨nofun, List.forall_mem_singleton.2 (by decide)⟩
  have hw : Chunk.FitsWord numberedChunks := by decide
  have hl : Locates (Chunk.locateByCount? numberedChunks) ['2']
      ['0', '(', '1', ')'] 1 :=
    ⟨List.forall_mem_singleton.2 (by decide), by decide, by decide⟩
  have hlabelled : IsLabelled ⟨"ERROR:\n0:2".toList, "ERROR: ".toList, ['2']⟩ :=
    ⟨"ERROR".toList, by decide, ['\n'], ['0'], ['2'],
      List.forall_mem_singleton.2 (by decide), hzero, htwo, rfl⟩
  have hparenthesized : IsParenthesized ⟨"0(2)".toList, [], ['2']⟩ :=
    ⟨['0'], ['2'], hzero, htwo, rfl⟩
  refine ⟨hf, hw, ((remap_rewrites_once hf _).2.1 hw _).1 ?_⟩
  refine .located (.labelled hlabelled (notNext_digit_cons (by decide))) hl ?_
  refine .copied nofun (.copied nofun ?_)
  exact .located (.parenthesized hparenthesized) hl .nil

end IncludeFlattener.CompilerLog
