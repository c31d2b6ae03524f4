/-
IncludeFlattener.CompilerLog.Dialect — how compilers refer to a line of
the text that they were given.

Two spellings are known: `ERROR: 0:12`, with `WARNING` as the other word,
and `0(12)`. The number before is that of the source text, which is always
the same one here; the number behind is the line. Digits of any script make
up a number and any white space may stand after the colon, line ends
included, so a reference may begin on one line of a log and end on another.

A dialect recognises a reference only where a text begins with it, takes
whole runs of digits, and loses nothing: `Dialect.exact` says that the
reference and what follows it make up the text.
-/
import IncludeFlattener.Text
import IncludeFlattener.Text.CharSet.Blank
import IncludeFlattener.Text.CharSet.Digit
namespace IncludeFlattener.CompilerLog

/-- A reference to a line. -/
structure Reference where
  /-- The reference as it is spelled. -/
  text : Text
  /-- What goes before the place that takes its place. -/
  label : Text
  /-- The digits of the line's number. -/
  number : Text
  deriving DecidableEq, Repr

/-- A way to spell references. -/
structure Dialect where
  /-- The reference with which a text begins, and what follows it. -/
  recognise : Text → Option (Reference × Text)
  /-- Nothing is lost, and no reference is empty. -/
  exact : ∀ {t : Text} {r : Reference} {rest : Text},
    recognise t = some (r, rest) → t = r.text ++ rest ∧ r.text ≠ []

/-- Something of the text is taken. -/
theorem Dialect.length_lt (d : Dialect) {t rest : Text} {r : Reference}
    (h : d.recognise t = some (r, rest)) : rest.length < t.length := by
  obtain ⟨rfl, hn⟩ := d.exact h
  have := List.length_pos_iff.2 hn
  rw [List.length_append]
  omega

/-! ## 1. Runs of characters -/

/-- The leading characters of a kind, of which there must be one, and what
follows them. -/
def run? (p : Char → Bool) (t : Text) : Option (Text × Text) :=
  if t.takeWhile p = [] then none else some (t.takeWhile p, t.dropWhile p)

/-- A number, and what follows it. -/
def digits? (t : Text) : Option (Text × Text) :=
  run? Text.CharSet.digit.contains t

theorem eq_append_of_run? {p : Char → Bool} {t run rest : Text}
    (h : run? p t = some (run, rest)) : t = run ++ rest ∧ run ≠ [] := by
  unfold run? at h
  split at h
  · cases h
  · rename_i hn
    cases h
    exact ⟨List.takeWhile_append_dropWhile.symm, hn⟩

/-! ## 2. Words before the numbers: `ERROR: 0:12` -/

/-- The words that mark a reference. -/
def severities : List Text := ["ERROR".toList, "WARNING".toList]

/-- The word with which a text begins, and what follows it. -/
def severity? (t : Text) : Option (Text × Text) :=
  severities.findSome? fun word =>
    (Text.after? word t).map fun rest => (word, rest)

theorem eq_append_of_severity? {t word rest : Text}
    (h : severity? t = some (word, rest)) :
    t = word ++ rest ∧ word ∈ severities := by
  obtain ⟨w, hw, hm⟩ := List.exists_of_findSome?_eq_some h
  obtain ⟨r, hr, he⟩ := Option.map_eq_some_iff.1 hm
  cases he
  exact ⟨Text.after?_eq_some_iff.1 hr, hw⟩

/-- A word, a colon, white space, and two numbers with a colon between. -/
def labelled? (t : Text) : Option (Reference × Text) := do
  let (word, t) ← severity? t
  let t ← Text.after? [':'] t
  let blanks := t.takeWhile Text.CharSet.blank.contains
  let (first, t) ← digits? (t.dropWhile Text.CharSet.blank.contains)
  let t ← Text.after? [':'] t
  let (second, t) ← digits? t
  return (⟨word ++ ':' :: (blanks ++ first ++ ':' :: second),
    word ++ [':', ' '], second⟩, t)

/-- References such as `ERROR: 0:12`. -/
def labelled : Dialect where
  recognise := labelled?
  exact := by
    intro t r rest h
    simp only [labelled?, bind, pure, Option.bind_eq_some_iff,
      Prod.exists] at h
    obtain ⟨word, t1, h1, t2, h2, first, t3, h3, t4, h4, second, t5, h5,
      he⟩ := h
    cases he
    obtain ⟨rfl, -⟩ := eq_append_of_severity? h1
    have e2 := Text.after?_eq_some_iff.1 h2
    have e3 := (eq_append_of_run? h3).1
    have e4 := Text.after?_eq_some_iff.1 h4
    have e5 := (eq_append_of_run? h5).1
    have eb := List.takeWhile_append_dropWhile
      (p := Text.CharSet.blank.contains) (l := t2)
    rw [e3, e4, e5] at eb
    constructor
    · rw [e2]
      conv => lhs; rw [← eb]
      simp
    · simp

/-! ## 3. Numbers alone: `0(12)` -/

/-- Two numbers, the second in parentheses. -/
def parenthesized? (t : Text) : Option (Reference × Text) := do
  let (first, t) ← digits? t
  let t ← Text.after? ['('] t
  let (second, t) ← digits? t
  let t ← Text.after? [')'] t
  return (⟨first ++ '(' :: (second ++ [')']), [], second⟩, t)

/-- References such as `0(12)`. -/
def parenthesized : Dialect where
  recognise := parenthesized?
  exact := by
    intro t r rest h
    simp only [parenthesized?, bind, pure, Option.bind_eq_some_iff,
      Prod.exists] at h
    obtain ⟨first, t1, h1, t2, h2, second, t3, h3, t4, h4, he⟩ := h
    cases he
    obtain ⟨rfl, -⟩ := eq_append_of_run? h1
    have e2 := Text.after?_eq_some_iff.1 h2
    have e3 := (eq_append_of_run? h3).1
    have e4 := Text.after?_eq_some_iff.1 h4
    exact ⟨by rw [e2, e3, e4]; simp, by simp⟩

end IncludeFlattener.CompilerLog
