/-
IncludeFlattener.CommandLine.Arguments — what the words of a command line
ask for.

Reading goes in two steps. `items` says what each word is: an operand, a
setting with its value, a flag, or a word that is wrong. `Draft.add` then
takes the items one after another until one of them stops it, so of two
things that are wrong the first counts, and help that is asked for before
anything is wrong is given.

A word that begins with `-`, other than `-` itself, is never the value of a
setting unless it stands in the same word as the setting (`--keyword=-x`);
behind the word `--` every word is an operand.
-/
import IncludeFlattener.Directive
namespace IncludeFlattener.CommandLine

/-! ## 1. What can be asked for -/

/-- What takes a value. -/
inductive Setting where
  | keyword
  | output
  deriving DecidableEq, Repr

/-- What takes none. -/
inductive Flag where
  | report
  | help
  | version
  deriving DecidableEq, Repr

/-- Why the words of a command line ask for nothing. -/
inductive UsageError where
  /-- There is no such option. -/
  | unknown (word : Text)
  /-- A setting stands without its value. -/
  | valueMissing (setting : Setting)
  /-- A setting that may not be empty is. -/
  | valueEmpty (setting : Setting)
  /-- A flag stands with a value. -/
  | valueUnwanted (flag : Flag)
  /-- A setting is given a second time. -/
  | settingRepeated (setting : Setting)
  /-- A flag is given a second time. -/
  | flagRepeated (flag : Flag)
  /-- There is an operand behind the file. -/
  | operandUnwanted (word : Text)
  /-- There is no file. -/
  | fileMissing
  deriving DecidableEq, Repr

/-- What keeps the arguments from being carried out. -/
inductive Stop where
  | usage (error : UsageError)
  | help
  | version
  deriving DecidableEq, Repr

/-- What a command line asks for. -/
structure Arguments where
  /-- The file to flatten. -/
  file : Path
  /-- The text of the keyword, which may turn out to be none. -/
  keyword : Text
  /-- Where the flattened text is written, if not to the standard output. -/
  output : Option Path
  /-- Whether the account of the flattening is logged. -/
  report : Bool
  deriving DecidableEq, Repr

/-- A setting as it is written. -/
def Setting.spelling : Setting → Text
  | .keyword => "--keyword <KEYWORD>".toList
  | .output => "--output <OUTPUT>".toList

/-- A flag as it is written. -/
def Flag.spelling : Flag → Text
  | .report => "--report".toList
  | .help => "--help".toList
  | .version => "--version".toList

/-- The error in words. -/
def UsageError.message : UsageError → Text
  | .unknown w => "unknown option: ".toList ++ w
  | .valueMissing s => "value missing: ".toList ++ s.spelling
  | .valueEmpty s => "value empty: ".toList ++ s.spelling
  | .valueUnwanted f => "option takes no value: ".toList ++ f.spelling
  | .settingRepeated s => "option given twice: ".toList ++ s.spelling
  | .flagRepeated f => "option given twice: ".toList ++ f.spelling
  | .operandUnwanted w => "unexpected argument: ".toList ++ w
  | .fileMissing => "argument missing: <FILE>".toList

/-! ## 2. What the words are -/

/-- What a word, or a part of one, stands for. -/
inductive Item where
  | operand (word : Text)
  | setting (setting : Setting) (value : Text)
  | flag (flag : Flag)
  | wrong (error : UsageError)
  deriving DecidableEq, Repr

/-- An option: a setting or a flag. -/
abbrev Choice := Setting ⊕ Flag

/-- The option with a long name. -/
def longNamed? (name : Text) : Option Choice :=
  [("keyword", .inl .keyword), ("output", .inl .output),
    ("report", .inr .report), ("help", .inr .help),
    ("version", .inr .version)].findSome? fun (n, choice) =>
      if name = n.toList then some choice else none

/-- The option with a name of one letter. -/
def shortNamed? (name : Char) : Option Choice :=
  [('o', .inl .output), ('h', .inr .help), ('V', .inr .version)].lookup name

/-- Whether a word is an option, if it is not behind the word `--`. -/
def isOption (word : Text) : Bool := word.head? = some '-' && word ≠ ['-']

/-- What comes before the first `=` of a word, and what comes after it, if
there is one. -/
def cutAtEquals : Text → Text × Option Text
  | [] => ([], none)
  | c :: rest =>
    if c = '=' then ([], some rest)
    else (c :: (cutAtEquals rest).1, (cutAtEquals rest).2)

/-- What the word `--name` or `--name=value` stands for, and the setting
that takes the next word as its value. -/
def longItems (body : Text) : List Item × Option Setting :=
  match longNamed? (cutAtEquals body).1, (cutAtEquals body).2 with
  | none, _ => ([.wrong (.unknown ('-' :: '-' :: body))], none)
  | some (.inl setting), none => ([], some setting)
  | some (.inl setting), some value => ([.setting setting value], none)
  | some (.inr flag), none => ([.flag flag], none)
  | some (.inr flag), some _ => ([.wrong (.valueUnwanted flag)], none)

/-- What the letters behind a single `-` stand for, and the setting that
takes the next word as its value. The letters behind a setting are its
value; a `=` before the value is not part of it. -/
def shortItems : Text → List Item × Option Setting
  | [] => ([], none)
  | c :: rest =>
    match shortNamed? c with
    | none => ([.wrong (.unknown ['-', c])], none)
    | some (.inr flag) =>
      (.flag flag :: (shortItems rest).1, (shortItems rest).2)
    | some (.inl setting) =>
      match rest with
      | [] => ([], some setting)
      | d :: value =>
        ([.setting setting (if d = '=' then value else rest)], none)

/-- What a word stands for where no setting waits for its value. -/
def wordItems (w : Text) : List Item × Option Setting :=
  if ! isOption w then ([.operand w], none)
  else match Text.after? ['-', '-'] w with
    | some body => longItems body
    | none => shortItems w.tail

/-- What words stand for; `awaiting` is the setting that waits for its
value. -/
def items (awaiting : Option Setting) : List Text → List Item
  | [] => (awaiting.map fun s => .wrong (.valueMissing s)).toList
  | w :: rest =>
    match awaiting with
    | some s =>
      if isOption w then [.wrong (.valueMissing s)]
      else .setting s w :: items none rest
    | none =>
      if w = ['-', '-'] then rest.map .operand
      else (wordItems w).1 ++ items (wordItems w).2 rest

/-! ## 3. The arguments -/

/-- What has been asked for so far. -/
structure Draft where
  file : Option Path := none
  keyword : Option Text := none
  output : Option Path := none
  report : Bool := false
  deriving DecidableEq, Repr

namespace Draft

/-- One more item. An output without a name is wrong already; whether the
keyword can be used is found out later. -/
def add (d : Draft) : Item → Except Stop Draft
  | .operand w =>
    if d.file.isSome then .error (.usage (.operandUnwanted w))
    else .ok { d with file := some w }
  | .setting .keyword value =>
    if d.keyword.isSome then .error (.usage (.settingRepeated .keyword))
    else .ok { d with keyword := some value }
  | .setting .output value =>
    if d.output.isSome then .error (.usage (.settingRepeated .output))
    else if value = [] then .error (.usage (.valueEmpty .output))
    else .ok { d with output := some value }
  | .flag .report =>
    if d.report then .error (.usage (.flagRepeated .report))
    else .ok { d with report := true }
  | .flag .help => .error .help
  | .flag .version => .error .version
  | .wrong e => .error (.usage e)

/-- The arguments that were asked for. -/
def finish (d : Draft) : Except Stop Arguments :=
  match d.file with
  | none => .error (.usage .fileMissing)
  | some file =>
    .ok ⟨file, d.keyword.getD Keyword.default.text, d.output, d.report⟩

end Draft

/-- The arguments that the words of a command line ask for. -/
def Arguments.ofWords (words : List Text) : Except Stop Arguments :=
  match (items none words).foldlM Draft.add {} with
  | .error stop => .error stop
  | .ok draft => draft.finish

/-! ## 4. Equations -/

/-- A setting takes any word as its value that is not an option. -/
theorem items_some {s : Setting} {w : Text} (h : isOption w = false)
    (rest : List Text) :
    items (some s) (w :: rest) = .setting s w :: items none rest := by
  simp [items, h]

/-- A word that is not an option is an operand. -/
theorem items_operand {w : Text} (h : isOption w = false)
    (rest : List Text) :
    items none (w :: rest) = .operand w :: items none rest := by
  have hw : w ≠ ['-', '-'] := by
    rintro rfl
    exact absurd h (by decide)
  simp [items, wordItems, h, hw]

/-- Behind `--` there are operands only. -/
theorem items_operands (rest : List Text) :
    items none (['-', '-'] :: rest) = rest.map .operand := by
  simp [items]

end IncludeFlattener.CommandLine
