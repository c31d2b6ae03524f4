/-
IncludeFlattener.Path — paths as texts: separators, the directory part,
roots and components.

Both `/` and `\` separate components wherever a path is read; `/` is the
one that is written. A path has a root (`splitRoot`) and, after it, a
list of components (`components`) in which empty ones are kept: what a
component means is decided where paths are folded.

Main statements: `directory_append_fileName` (the directory part and the
file name make up the path) and `components_ofComponents` (components are
found again after joining).
-/
import IncludeFlattener.Text
namespace IncludeFlattener

/-- A path, as it is spelled. -/
abbrev Path := Text

namespace Path

/-! ## 1. Separators -/

/-- Whether a character separates components. -/
def isSeparator (c : Char) : Bool := c = '/' || c = '\\'

/-- Spells every separator as `/`. -/
def normalizeSeparators (p : Path) : Path :=
  p.map fun c => if isSeparator c then '/' else c

/-- Everything up to and including the last separator. -/
def directory (p : Path) : Path :=
  (p.reverse.dropWhile fun c => !isSeparator c).reverse

/-- Everything after the last separator. -/
def fileName (p : Path) : Path :=
  (p.reverse.takeWhile fun c => !isSeparator c).reverse

theorem directory_append_fileName (p : Path) :
    directory p ++ fileName p = p := by
  rw [directory, fileName, ← List.reverse_append,
    List.takeWhile_append_dropWhile, List.reverse_reverse]

/-! ## 2. Roots -/

/-- Where a path starts. -/
inductive Root where
  /-- At the directory in which it is used. -/
  | none
  /-- At the top of the file system. -/
  | top
  /-- At the top of a drive, such as `C:/`. -/
  | drive (letter : Char)
  deriving DecidableEq, Repr

/-- Whether the path starts at a top, above which there is nothing. -/
def Root.isTop : Root → Bool
  | .none => false
  | .top => true
  | .drive _ => true

/-- How a root is written. A drive's letter may itself be a separator. -/
def Root.text : Root → Path
  | .none => []
  | .top => ['/']
  | .drive c => [if isSeparator c then '/' else c, ':', '/']

/-- Splits a path after its first separator, if it begins with one. -/
def splitTop : Path → Root × Path
  | [] => (.none, [])
  | c :: rest => if isSeparator c then (.top, rest) else (.none, c :: rest)

/-- Splits a path after its root. A drive is one ASCII character, a colon
and a separator; it goes before a leading separator. -/
def splitRoot : Path → Root × Path
  | c :: ':' :: s :: rest =>
    if c.toNat < 0x80 ∧ isSeparator s then (.drive c, rest)
    else splitTop (c :: ':' :: s :: rest)
  | p => splitTop p

/-! ## 3. Components -/

/-- The pieces between separators, empty ones included. -/
def components : Path → List Path
  | [] => [[]]
  | c :: rest =>
    if isSeparator c then [] :: components rest
    else match components rest with
      | [] => [[c]]
      | first :: others => (c :: first) :: others

/-- Components joined by `/`. -/
def ofComponents : List Path → Path
  | [] => []
  | [p] => p
  | p :: q :: rest => p ++ '/' :: ofComponents (q :: rest)

@[simp] theorem components_nil : components [] = [[]] := rfl

theorem components_separator {c : Char} (h : isSeparator c = true)
    (rest : Path) : components (c :: rest) = [] :: components rest := by
  simp [components, h]

theorem components_ne_nil : ∀ p : Path, components p ≠ []
  | [] => by simp
  | c :: rest => by
      unfold components
      split
      · simp
      · split <;> simp

/-- Before a separator stands exactly the first component. -/
theorem components_append {c : Char} (hc : isSeparator c = true) :
    ∀ (p rest : Path), (∀ x ∈ p, isSeparator x = false) →
    components (p ++ c :: rest) = p :: components rest
  | [], rest, _ => components_separator hc rest
  | x :: p, rest, h => by
      have ih := components_append hc p rest
        (fun y hy => h y (List.mem_cons_of_mem x hy))
      simp [components, h x (by simp), ih]

/-- A path without separators is its own only component. -/
theorem components_of_no_separator : ∀ p : Path,
    (∀ x ∈ p, isSeparator x = false) → components p = [p]
  | [], _ => rfl
  | x :: p, h => by
      have ih := components_of_no_separator p
        (fun y hy => h y (List.mem_cons_of_mem x hy))
      simp [components, h x (by simp), ih]

/-- Components without separators are found again after joining. -/
theorem components_ofComponents : ∀ ps : List Path, ps ≠ [] →
    (∀ p ∈ ps, ∀ x ∈ p, isSeparator x = false) →
    components (ofComponents ps) = ps
  | [], h, _ => absurd rfl h
  | [p], _, h => components_of_no_separator p (h p (by simp))
  | p :: q :: rest, _, h => by
      rw [ofComponents, components_append (by decide) p _ (h p (by simp)),
        components_ofComponents (q :: rest) (by simp)
          (fun r hr => h r (List.mem_cons_of_mem p hr))]

end Path

end IncludeFlattener
