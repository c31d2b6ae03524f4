/-
IncludeFlattener.Proofs.CompilerLog.Grammar — how references are spelled,
and what their numbers mean.

`IsLabelled` and `IsParenthesized` give the two spellings piece by piece, and
`labelled?_eq_some_iff` and `parenthesized?_eq_some_iff` say that each dialect
recognises exactly its own. The pieces are runs of one kind of character, and
the kinds have nothing in common: no digit is white space, and neither kind
has a colon or a parenthesis. So a text is cut into pieces in one way only.
What can be longer is the last number of a labelled reference, and hence it
must not be followed by a digit; a closing parenthesis ends the other kind.

A number that can be read is a run of ASCII digits, and its value is the usual
one (`read?_eq_some_iff`).
-/
import IncludeFlattener.CompilerLog
import Mathlib.Data.List.TakeWhile
namespace IncludeFlattener

/-! ## 1. Numbers -/

namespace Text.Decimal

theorem digit?_eq_some_iff {c : Char} {d : Nat} :
    digit? c = some d ↔ ('0' ≤ c ∧ c ≤ '9') ∧ d = c.toNat - '0'.toNat := by
  unfold digit?
  by_cases hc : '0' ≤ c ∧ c ≤ '9'
  · rw [if_pos hc, Option.some.injEq, eq_comm]
    exact (and_iff_right hc).symm
  · rw [if_neg hc]
    exact ⟨nofun, fun h => absurd h.1 hc⟩

theorem readFrom?_eq_some_iff : ∀ {t : Text} {n v : Nat},
    readFrom? n t = some v ↔
      (∀ c ∈ t, '0' ≤ c ∧ c ≤ '9') ∧ v = Nat.ofDigitChars 10 t n
  | [], n, v => by simp [Nat.ofDigitChars, eq_comm]
  | c :: t, n, v => by
      have ih := @readFrom?_eq_some_iff t
      rw [readFrom?_cons, Option.bind_eq_some_iff, List.forall_mem_cons,
        and_assoc]
      constructor
      · rintro ⟨d, hd, h⟩
        obtain ⟨hc, rfl⟩ := digit?_eq_some_iff.1 hd
        obtain ⟨ht, hv⟩ := ih.1 h
        exact ⟨hc, ht, hv⟩
      · rintro ⟨hc, ht, hv⟩
        exact ⟨_, digit?_eq_some_iff.2 ⟨hc, rfl⟩, ih.2 ⟨ht, hv⟩⟩

/-- What is read is a run of ASCII digits whose value is below the bound. -/
theorem read?_eq_some_iff {bound v : Nat} {t : Text} :
    read? bound t = some v ↔ t ≠ [] ∧ (∀ c ∈ t, '0' ≤ c ∧ c ≤ '9') ∧
      v = Nat.ofDigitChars 10 t 0 ∧ v < bound := by
  unfold read?
  by_cases ht : t = []
  · simp [ht]
  · rw [if_neg ht, Option.filter_eq_some_iff, readFrom?_eq_some_iff,
      decide_eq_true_eq, and_assoc]
    simp [ht]

end Text.Decimal

/-! ## 2. Runs of characters -/

namespace CompilerLog

open Text.CharSet (digit blank)

section Runs

variable {p : Char → Bool} {run rest t : Text}

/-- No character of the kind comes next. -/
def NotNext (p : Char → Bool) (rest : Text) : Prop :=
  ∀ c ∈ rest.head?, p c = false

theorem takeWhile_append_of_notNext (h : ∀ c ∈ run, p c = true)
    (hr : NotNext p rest) : (run ++ rest).takeWhile p = run := by
  rw [List.takeWhile_append_of_pos h]
  cases rest with
  | nil => simp
  | cons c rest => simp [hr c rfl]

theorem dropWhile_append_of_notNext (h : ∀ c ∈ run, p c = true)
    (hr : NotNext p rest) : (run ++ rest).dropWhile p = rest := by
  rw [List.dropWhile_append_of_pos h]
  cases rest with
  | nil => rfl
  | cons c rest => simp [hr c rfl]

theorem notNext_dropWhile (p : Char → Bool) (t : Text) :
    NotNext p (t.dropWhile p) := by
  intro c hc
  have h := List.head?_dropWhile_not p t
  rw [Option.mem_def.1 hc] at h
  exact h

theorem run?_eq_some_iff :
    run? p t = some (run, rest) ↔ run ≠ [] ∧ (∀ c ∈ run, p c = true) ∧
      NotNext p rest ∧ t = run ++ rest := by
  constructor
  · intro h
    obtain ⟨ht, hn⟩ := eq_append_of_run? h
    unfold run? at h
    rw [if_neg (by rintro h0; rw [if_pos h0] at h; cases h)] at h
    obtain ⟨hrun, hrest⟩ := Prod.mk.inj (Option.some.inj h)
    refine ⟨hn, ?_, hrest ▸ notNext_dropWhile p t, ht⟩
    intro c hc
    rw [← hrun] at hc
    exact List.mem_takeWhile_imp hc
  · rintro ⟨hn, hp, hr, rfl⟩
    rw [run?, takeWhile_append_of_notNext hp hr,
      dropWhile_append_of_notNext hp hr, if_neg hn]

end Runs

/-- A run of digits. -/
structure IsNumber (t : Text) : Prop where
  ne_nil : t ≠ []
  digits : ∀ c ∈ t, digit.contains c = true

theorem digits?_eq_some_iff {t number rest : Text} :
    digits? t = some (number, rest) ↔
      IsNumber number ∧ NotNext digit.contains rest ∧ t = number ++ rest := by
  rw [digits?, run?_eq_some_iff]
  constructor
  · rintro ⟨hn, hd, hr, ht⟩
    exact ⟨⟨hn, hd⟩, hr, ht⟩
  · rintro ⟨⟨hn, hd⟩, hr, ht⟩
    exact ⟨hn, hd, hr, ht⟩

/-- No digit is white space: the ranges lie apart. -/
theorem blank_eq_false_of_digit {c : Char} (h : digit.contains c = true) :
    blank.contains c = false := by
  have hapart : ∀ r ∈ digit.ranges, ∀ s ∈ blank.ranges,
      r.2 < s.1 ∨ s.2 < r.1 := by decide
  obtain ⟨r, hr, hr1, hr2⟩ := (Text.CharSet.contains_iff digit c).1 h
  by_contra hb
  rw [Bool.not_eq_false] at hb
  obtain ⟨s, hs, hs1, hs2⟩ := (Text.CharSet.contains_iff blank c).1 hb
  have := hapart r hr s hs
  omega

/-- A number begins with no white space. -/
theorem IsNumber.notNext_blank {number rest : Text} (h : IsNumber number) :
    NotNext blank.contains (number ++ rest) := by
  obtain ⟨d, tail, rfl⟩ := List.exists_cons_of_ne_nil h.ne_nil
  rintro c ⟨⟩
  exact blank_eq_false_of_digit (h.digits d List.mem_cons_self)

theorem notNext_digit_cons {c : Char} {rest : Text}
    (h : digit.contains c = false) : NotNext digit.contains (c :: rest) := by
  rintro d ⟨⟩
  exact h

/-! ## 3. Spellings -/

/-- A word, a colon, white space, and two numbers with a colon between. -/
def IsLabelled (r : Reference) : Prop :=
  ∃ word ∈ severities, ∃ blanks first second,
    (∀ c ∈ blanks, blank.contains c = true) ∧ IsNumber first ∧
    IsNumber second ∧
    r = ⟨word ++ ':' :: (blanks ++ first ++ ':' :: second),
      word ++ [':', ' '], second⟩

/-- Two numbers, the second in parentheses. -/
def IsParenthesized (r : Reference) : Prop :=
  ∃ first second, IsNumber first ∧ IsNumber second ∧
    r = ⟨first ++ '(' :: (second ++ [')']), [], second⟩

/-- Neither of the two words is the beginning of the other. -/
theorem severity?_append {word : Text} (h : word ∈ severities)
    (rest : Text) : severity? (word ++ rest) = some (word, rest) := by
  simp only [severities, List.mem_cons, List.not_mem_nil, or_false] at h
  rcases h with rfl | rfl
  · rfl
  · rfl

theorem after?_singleton (c : Char) (rest : Text) :
    Text.after? [c] (c :: rest) = some rest :=
  Text.after?_eq_some_iff.2 rfl

theorem labelled?_eq_some_iff {t rest : Text} {r : Reference} :
    labelled? t = some (r, rest) ↔
      IsLabelled r ∧ NotNext digit.contains rest ∧ t = r.text ++ rest := by
  constructor
  · intro h
    have ht := (labelled.exact h).1
    simp only [labelled?, bind, pure, Option.bind_eq_some_iff,
      Prod.exists] at h
    obtain ⟨word, t1, h1, t2, h2, first, t3, h3, t4, h4, second, t5, h5,
      he⟩ := h
    cases he
    obtain ⟨hsecond, hrest, -⟩ := digits?_eq_some_iff.1 h5
    refine ⟨⟨word, (eq_append_of_severity? h1).2, _, first, second, ?_,
      (digits?_eq_some_iff.1 h3).1, hsecond, rfl⟩, hrest, ht⟩
    intro c hc
    exact List.mem_takeWhile_imp hc
  · rintro ⟨⟨word, hw, blanks, first, second, hb, h1, h2, rfl⟩, hr, rfl⟩
    have hcut : NotNext blank.contains (first ++ ':' :: (second ++ rest)) :=
      h1.notNext_blank
    have hfirst : digits? (first ++ ':' :: (second ++ rest))
        = some (first, ':' :: (second ++ rest)) :=
      digits?_eq_some_iff.2 ⟨h1, notNext_digit_cons (by decide), rfl⟩
    have hsecond : digits? (second ++ rest) = some (second, rest) :=
      digits?_eq_some_iff.2 ⟨h2, hr, rfl⟩
    simp [labelled?, severity?_append hw, after?_singleton,
      takeWhile_append_of_notNext hb hcut,
      dropWhile_append_of_notNext hb hcut, hfirst, hsecond]

theorem parenthesized?_eq_some_iff {t rest : Text} {r : Reference} :
    parenthesized? t = some (r, rest) ↔
      IsParenthesized r ∧ t = r.text ++ rest := by
  constructor
  · intro h
    have ht := (parenthesized.exact h).1
    simp only [parenthesized?, bind, pure, Option.bind_eq_some_iff,
      Prod.exists] at h
    obtain ⟨first, t1, h1, t2, h2, second, t3, h3, t4, h4, he⟩ := h
    cases he
    exact ⟨⟨first, second, (digits?_eq_some_iff.1 h1).1,
      (digits?_eq_some_iff.1 h3).1, rfl⟩, ht⟩
  · rintro ⟨⟨first, second, h1, h2, rfl⟩, rfl⟩
    have hfirst : digits? (first ++ '(' :: (second ++ ')' :: rest))
        = some (first, '(' :: (second ++ ')' :: rest)) :=
      digits?_eq_some_iff.2 ⟨h1, notNext_digit_cons (by decide), rfl⟩
    have hsecond : digits? (second ++ ')' :: rest)
        = some (second, ')' :: rest) :=
      digits?_eq_some_iff.2 ⟨h2, notNext_digit_cons (by decide), rfl⟩
    simp [parenthesized?, after?_singleton, hfirst, hsecond]

end CompilerLog

end IncludeFlattener
