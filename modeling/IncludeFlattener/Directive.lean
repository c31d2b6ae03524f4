/-
IncludeFlattener.Directive — which lines are include directives, and what
they name.

A line that starts with the keyword is a directive; anywhere else the
keyword is ordinary text. What follows the keyword must hold a path in
quotes: the text between the first quote and the next one, whatever stands
around it. Quotes inside the keyword are not counted.

`quotedPath?_eq_some_iff` and `quotedPath?_eq_none_iff` give the grammar of
the part after the keyword, and `classify_eq_directive_iff` and
`classify_eq_malformed_iff` that of a whole line; `classify_eq_ordinary_iff`
says that nothing but the keyword decides whether a line is copied.
-/
import IncludeFlattener.Path
namespace IncludeFlattener

/-- The word that marks a directive. It is not empty, for every line would
start with it. -/
structure Keyword where
  text : Text
  text_ne_nil : text ≠ []
  deriving DecidableEq

namespace Keyword

/-- The keyword with this text, if there is one. -/
def ofText? (t : Text) : Option Keyword :=
  if h : t = [] then none else some ⟨t, h⟩

/-- The keyword in use where none is chosen. -/
def default : Keyword := ⟨"//#include".toList, by decide⟩

end Keyword

/-- What a line is to the flattener. -/
inductive LineKind where
  /-- A line to copy. -/
  | ordinary
  /-- A directive that names this path. -/
  | directive (path : Path)
  /-- A directive without a path in quotes. -/
  | malformed
  deriving DecidableEq, Repr

namespace Directive

/-! ## 1. Reading a line -/

/-- The text before the first quote and the text after it. -/
def cutAtQuote? : Text → Option (Text × Text)
  | [] => none
  | c :: t =>
    if c = '"' then some ([], t)
    else (cutAtQuote? t).map fun (before, rest) => (c :: before, rest)

/-- The text between the first quote and the next one. -/
def quotedPath? (t : Text) : Option Path :=
  (cutAtQuote? t).bind fun (_, rest) => (cutAtQuote? rest).map (·.1)

/-- What a line is under a keyword. -/
def classify (keyword : Keyword) (line : Text) : LineKind :=
  match Text.after? keyword.text line with
  | none => .ordinary
  | some rest =>
    match quotedPath? rest with
    | none => .malformed
    | some path => .directive path

/-! ## 2. The grammar -/

theorem cutAtQuote?_append : ∀ (u v : Text), '"' ∉ u →
    cutAtQuote? (u ++ '"' :: v) = some (u, v)
  | [], v, _ => by simp [cutAtQuote?]
  | c :: u, v, h => by
      have hc : c ≠ '"' := fun hq => h (by simp [hq])
      simp [cutAtQuote?, hc,
        cutAtQuote?_append u v (fun hm => h (List.mem_cons_of_mem c hm))]

/-- A text is cut at its first quote. -/
theorem cutAtQuote?_eq_some_iff : ∀ {t u v : Text},
    cutAtQuote? t = some (u, v) ↔ t = u ++ '"' :: v ∧ '"' ∉ u := by
  intro t u v
  constructor
  · induction t generalizing u with
    | nil => simp [cutAtQuote?]
    | cons c t ih =>
      unfold cutAtQuote?
      by_cases hc : c = '"'
      · rw [if_pos hc]
        rintro ⟨⟩
        simp [hc]
      · rw [if_neg hc]
        intro h
        obtain ⟨⟨u', v'⟩, h', he⟩ := Option.map_eq_some_iff.1 h
        cases he
        obtain ⟨rfl, hu⟩ := ih h'
        simp [Ne.symm hc, hu]
  · rintro ⟨rfl, hu⟩
    exact cutAtQuote?_append u v hu

theorem cutAtQuote?_eq_none_iff : ∀ {t : Text},
    cutAtQuote? t = none ↔ '"' ∉ t
  | [] => by simp [cutAtQuote?]
  | c :: t => by
      by_cases hc : c = '"'
      · simp [cutAtQuote?, hc]
      · simp [cutAtQuote?, hc, Ne.symm hc, @cutAtQuote?_eq_none_iff t]

/-- The quoted path is what stands between the first two quotes. -/
theorem quotedPath?_eq_some_iff {t : Text} {q : Path} :
    quotedPath? t = some q ↔
      ∃ u v, t = u ++ '"' :: (q ++ '"' :: v) ∧ '"' ∉ u ∧ '"' ∉ q := by
  constructor
  · intro h
    obtain ⟨⟨u, rest⟩, h1, h⟩ := Option.bind_eq_some_iff.1 h
    obtain ⟨⟨q', v⟩, h2, rfl⟩ := Option.map_eq_some_iff.1 h
    obtain ⟨rfl, hu⟩ := cutAtQuote?_eq_some_iff.1 h1
    obtain ⟨rfl, hq⟩ := cutAtQuote?_eq_some_iff.1 h2
    exact ⟨u, v, rfl, hu, hq⟩
  · rintro ⟨u, v, rfl, hu, hq⟩
    simp [quotedPath?, cutAtQuote?_append, hu, hq]

/-- Without two quotes there is no path. -/
theorem quotedPath?_eq_none_iff {t : Text} :
    quotedPath? t = none ↔ t.count '"' < 2 := by
  cases hu : cutAtQuote? t with
  | none =>
    have h0 := List.count_eq_zero.2 (cutAtQuote?_eq_none_iff.1 hu)
    simp [quotedPath?, hu, h0]
  | some cut =>
    obtain ⟨u, rest⟩ := cut
    obtain ⟨rfl, hu'⟩ := cutAtQuote?_eq_some_iff.1 hu
    have hn : quotedPath? (u ++ '"' :: rest) = none
        ↔ cutAtQuote? rest = none := by simp [quotedPath?, hu]
    rw [hn, cutAtQuote?_eq_none_iff, ← List.count_eq_zero,
      List.count_append, List.count_cons_self, List.count_eq_zero.2 hu']
    omega

/-- Only the keyword decides whether a line is copied. -/
theorem classify_eq_ordinary_iff {keyword : Keyword} {line : Text} :
    classify keyword line = .ordinary ↔ ¬ keyword.text <+: line := by
  rw [← Text.after?_eq_none_iff]
  unfold classify
  cases Text.after? keyword.text line with
  | none => simp
  | some rest => cases h : quotedPath? rest <;> simp [h]

/-- The line is the keyword and a text in which `q` stands between the first
quote and the next one. -/
def Names (keyword : Keyword) (line : Text) (q : Path) : Prop :=
  ∃ u v, line = keyword.text ++ (u ++ '"' :: (q ++ '"' :: v)) ∧
    '"' ∉ u ∧ '"' ∉ q

/-- The line is the keyword and a text with fewer than two quotes. -/
def LacksPath (keyword : Keyword) (line : Text) : Prop :=
  ∃ rest, line = keyword.text ++ rest ∧ rest.count '"' < 2

theorem classify_eq_directive_iff {keyword : Keyword} {line : Text}
    {q : Path} :
    classify keyword line = .directive q ↔ Names keyword line q := by
  unfold classify Names
  cases ha : Text.after? keyword.text line with
  | none =>
    simp only [reduceCtorEq, false_iff, not_exists, not_and]
    rintro u v rfl
    exact absurd ⟨_, rfl⟩ (Text.after?_eq_none_iff.1 ha)
  | some rest =>
    obtain rfl := Text.after?_eq_some_iff.1 ha
    simp only [List.append_cancel_left_eq, ← quotedPath?_eq_some_iff]
    cases quotedPath? rest <;> simp

theorem classify_eq_malformed_iff {keyword : Keyword} {line : Text} :
    classify keyword line = .malformed ↔ LacksPath keyword line := by
  unfold classify LacksPath
  cases ha : Text.after? keyword.text line with
  | none =>
    simp only [reduceCtorEq, false_iff, not_exists, not_and]
    rintro rest rfl
    exact absurd ⟨_, rfl⟩ (Text.after?_eq_none_iff.1 ha)
  | some rest =>
    obtain rfl := Text.after?_eq_some_iff.1 ha
    simp only [List.append_cancel_left_eq, exists_eq_left',
      ← quotedPath?_eq_none_iff]
    cases quotedPath? rest <;> simp

end Directive

end IncludeFlattener
