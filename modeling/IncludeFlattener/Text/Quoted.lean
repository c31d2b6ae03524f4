/-
IncludeFlattener.Text.Quoted — text in quotes, as messages show it.

What a reader could not see or could misread is escaped: quotes and
backslashes, line ends and tabs by a letter; characters without a printed
form, characters that are shown as nothing, and characters that would
attach themselves to the one before them by their code point. Everything
else is shown as it is. So a quoted text holds no line end
(`lf_not_mem_quote`): a message stays on one line whatever the names in it
are.
-/
import IncludeFlattener.Text.CharSet.Extending
import IncludeFlattener.Text.CharSet.Ignorable
import IncludeFlattener.Text.CharSet.Unprintable
namespace IncludeFlattener.Text.Quoted

/-- A character by its code point, in lower-case hexadecimal. -/
def codePoint (c : Char) : Text :=
  ['\\', 'u', '\x7b'] ++ Nat.toDigits 16 c.toNat ++ ['\x7d']

/-- Whether a character is shown by its code point only. -/
def isHidden (c : Char) : Bool :=
  CharSet.extending.contains c || CharSet.ignorable.contains c
    || CharSet.unprintable.contains c

/-- A character as it appears between quotes. -/
def escape (c : Char) : Text :=
  if c = '\x00' then ['\\', '0']
  else if c = '\t' then ['\\', 't']
  else if c = '\r' then ['\\', 'r']
  else if c = '\n' then ['\\', 'n']
  else if c = '"' ∨ c = '\\' then ['\\', c]
  else if isHidden c then codePoint c
  else [c]

/-- The text in quotes. -/
def quote (t : Text) : Text := ['"'] ++ t.flatMap escape ++ ['"']

/-! ## A quoted text is one line -/

theorem digitChar_ne_lf (n : Nat) (h : n < 16) : n.digitChar ≠ '\n' :=
  (by decide : ∀ m : Fin 16, m.val.digitChar ≠ '\n') ⟨n, h⟩

theorem lf_not_mem_toDigits (n : Nat) : '\n' ∉ Nat.toDigits 16 n := by
  induction n using Nat.strongRecOn with
  | ind n ih =>
    by_cases h : n < 16
    · rw [Nat.toDigits_of_lt_base h, List.mem_singleton]
      exact Ne.symm (digitChar_ne_lf n h)
    · rw [Nat.toDigits_of_base_le (by decide) (by omega), List.mem_append,
        List.mem_singleton, not_or]
      exact ⟨ih _ (by omega), Ne.symm (digitChar_ne_lf _ (by omega))⟩

theorem lf_not_mem_escape (c : Char) : '\n' ∉ escape c := by
  unfold escape codePoint
  repeat' split
  all_goals simp_all [lf_not_mem_toDigits]
  all_goals exact fun h => absurd h.symm (by assumption)

/-- A quoted text holds no line end. -/
theorem lf_not_mem_quote (t : Text) : '\n' ∉ quote t := by
  simp [quote, lf_not_mem_escape]

end IncludeFlattener.Text.Quoted
