/-
IncludeFlattener.Text.Decimal — natural numbers as decimal text.

`write` is the usual notation without leading zeros. `read?` takes a run
of the ten ASCII digits, leading zeros allowed, and gives its value only
if it is below a bound: a number that a machine word cannot hold is not
read at all. Below the bound, what is written is read back
(`read?_write`).
-/
import IncludeFlattener.Text
namespace IncludeFlattener.Text.Decimal

/-- The decimal digits of a number, most significant first. -/
def write (n : Nat) : Text := Nat.toDigits 10 n

/-- The value of an ASCII digit. -/
def digit? (c : Char) : Option Nat :=
  if '0' ≤ c ∧ c ≤ '9' then some (c.toNat - '0'.toNat) else none

/-- The value of a run of digits that stands after digits of value `n`. -/
def readFrom? (n : Nat) : Text → Option Nat
  | [] => some n
  | c :: rest => (digit? c).bind fun d => readFrom? (10 * n + d) rest

/-- The value of a non-empty run of ASCII digits, if it is below `bound`. -/
def read? (bound : Nat) (t : Text) : Option Nat :=
  if t = [] then none
  else (readFrom? 0 t).filter (· < bound)

/-! ## Equations -/

@[simp] theorem readFrom?_nil (n : Nat) : readFrom? n [] = some n := rfl

theorem readFrom?_cons (n : Nat) (c : Char) (rest : Text) :
    readFrom? n (c :: rest)
      = (digit? c).bind fun d => readFrom? (10 * n + d) rest := rfl

theorem read?_lt {bound n : Nat} {t : Text} (h : read? bound t = some n) :
    n < bound := by
  unfold read? at h
  split at h
  · cases h
  · exact of_decide_eq_true (Option.filter_eq_some_iff.1 h).2

/-! ## What is written is read back -/

theorem readFrom?_append : ∀ (n : Nat) (s t : Text),
    readFrom? n (s ++ t) = (readFrom? n s).bind (readFrom? · t)
  | _, [], _ => rfl
  | n, c :: s, t => by
      rw [List.cons_append, readFrom?_cons, readFrom?_cons,
        Option.bind_assoc]
      exact Option.bind_congr fun d _ => readFrom?_append (10 * n + d) s t

theorem digit?_digitChar {d : Nat} (h : d < 10) :
    digit? d.digitChar = some d :=
  (by decide : ∀ m : Fin 10, digit? m.val.digitChar = some m.val) ⟨d, h⟩

theorem readFrom?_write (n : Nat) : readFrom? 0 (write n) = some n := by
  induction n using Nat.strongRecOn with
  | ind n ih =>
    by_cases h : n < 10
    · simp [write, Nat.toDigits_of_lt_base h, readFrom?_cons,
        digit?_digitChar h]
    · have hd := Nat.mod_lt n (show 0 < 10 by decide)
      rw [write, Nat.toDigits_of_base_le (by decide) (by omega),
        readFrom?_append, ← write, ih (n / 10) (by omega)]
      simp [readFrom?_cons, digit?_digitChar hd]
      omega

/-- A number that is below the bound is read back as it was written. -/
theorem read?_write {bound n : Nat} (h : n < bound) :
    read? bound (write n) = some n := by
  have hn : write n ≠ [] := Nat.toDigits_ne_nil
  rw [read?, if_neg hn, readFrom?_write, Option.filter_some,
    if_pos (by simpa using h)]

end IncludeFlattener.Text.Decimal
