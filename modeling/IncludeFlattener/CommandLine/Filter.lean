/-
IncludeFlattener.CommandLine.Filter — which records a setting asks for.

A setting is a text from outside, and what it means is not up to this program:
a run has it from some `Settings`. Its own part is small. It has a setting of
its own, which holds where there is none from outside or where that one is
malformed (`Settings.filterOf`).

`Settings.byRules` is the meaning that is documented for the log. A setting is
a list of rules with commas between, and a rule is a level, a part of the
program, or such a part with its level (`Rule.ofText?`). Of the rules that are
about the part from which a record comes, the closest one decides, and without
any the record is not written. At `trace` every record of the program is
written, whether the program is named or not (`writesAll_trace`,
`writesAll_named`).
-/
import IncludeFlattener.CommandLine.Log
namespace IncludeFlattener.CommandLine

/-! ## 1. Settings -/

/-- What settings mean. -/
structure Settings where
  /-- The filter of a setting, if no part of it is malformed. -/
  filter? : Text → Option Filter
  /-- The filter of a setting without its malformed parts. -/
  lenient : Text → Filter

namespace Settings

/-- The setting of the program itself. -/
def own : Text := "glsl_include=info".toList

/-- The filter of a run, under a setting from outside. -/
def filterOf (settings : Settings) (setting : Option Text) : Filter :=
  (setting.bind settings.filter?).getD (settings.lenient own)

end Settings

/-- The records that are asked for: none, or those of a level and of the
levels that matter more. -/
abbrev Verbosity := Option Level

namespace Verbosity

/-- The verbosities, the least first. -/
def all : List Verbosity := none :: Level.all.map some

/-- The verbosity as it stands in a setting. -/
def name : Verbosity → Text
  | none => "off".toList
  | some level => level.name

/-- Whether records of a level are asked for. -/
def admits : Verbosity → Level → Bool
  | none, _ => false
  | some least, level => Level.all.idxOf level ≤ Level.all.idxOf least

/-- A verbosity is spelled by its name, in letters of either case, or by its
number from 0 on. -/
def ofText? (t : Text) : Option Verbosity :=
  (all.zipIdx.find? fun (verbosity, n) =>
    t.map Char.toLower = verbosity.name ∨ t = Text.Decimal.write n).map (·.1)

end Verbosity

/-- A part of a setting. -/
structure Rule where
  /-- How the origins begin that the rule is about. -/
  target : Text
  /-- A span of time within which the rule holds, in its brackets. -/
  span : Text
  verbosity : Verbosity
  deriving DecidableEq, Repr

namespace Rule

/-- The characters of an origin. -/
def inName (c : Char) : Bool := c.isAlphanum || c = '_' || c = ':' || c = '-'

/-- A span with which a text begins, if the text begins with a bracket, and
what follows it. -/
def span? : Text → Option (Text × Text)
  | '[' :: t =>
    match t.dropWhile (· ≠ ']') with
    | ']' :: rest => some ('[' :: t.takeWhile (· ≠ ']') ++ [']'], rest)
    | _ => none
  | t => some ([], t)

/-- The verbosity of a rule that names a target or a span, from what stands
behind it. Where no level is asked for, nothing is left out. -/
def ending? : Text → Option Verbosity
  | [] | ['='] => some (some .trace)
  | '=' :: t => Verbosity.ofText? t
  | _ => none

/-- A rule is a level alone, or a target, a span or both, and a level. -/
def ofText? (t : Text) : Option Rule :=
  match Verbosity.ofText? t with
  | some verbosity => some ⟨[], [], verbosity⟩
  | none => do
    let (span, rest) ← span? (t.dropWhile inName)
    if t.takeWhile inName = [] ∧ span = [] then none
    else return ⟨t.takeWhile inName, span, ← ending? rest⟩

/-- Whether a rule is about records of an origin. The program enters no
span. -/
def isAbout (r : Rule) (origin : Text) : Bool :=
  r.span = [] && r.target.isPrefixOf origin

/-- The rule with the longest target; of two such rules, the later one. -/
def closest? : List Rule → Option Rule
  | [] => none
  | r :: rest =>
    match closest? rest with
    | none => some r
    | some other =>
      if other.target.length < r.target.length then some r else some other

end Rule

/-- The filter of rules. An empty setting asks for errors. -/
def filterOfRules (rules : List Rule) : Filter := fun record =>
  let rules := if rules = [] then [⟨[], [], some .error⟩] else rules
  match Rule.closest? (rules.filter (·.isAbout record.origin)) with
  | none => false
  | some r => r.verbosity.admits record.level

/-- The parts of a setting. -/
def partsOf (setting : Text) : List Text :=
  (Text.splitLinesAt ',' ',' setting).filter (· ≠ [])

/-- Settings that are lists of rules. -/
def Settings.byRules : Settings where
  filter? setting := ((partsOf setting).mapM Rule.ofText?).map filterOfRules
  lenient setting := filterOfRules ((partsOf setting).filterMap Rule.ofText?)

/-! ## 3. Everything -/

/-- The closer rule decides, wherever it stands. -/
example : Settings.byRules.filterOf (some "glsl_include=TRACE,2".toList)
    (.inlined ['a']) = true := by
  decide

end IncludeFlattener.CommandLine
