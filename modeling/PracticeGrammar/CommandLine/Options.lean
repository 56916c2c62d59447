import PracticeGrammar.Text.Alphanumeric

/-! The options of the checker. Option names are recognised however their words are written: they
are cut at characters that are neither letters nor digits and where the case changes, and compared
in lower case. Both options are single words, so a name that holds two words is neither. -/

namespace PracticeGrammar.CommandLine

inductive LetterCase where
  | lower
  | upper
deriving DecidableEq

def LetterCase.of? (char : Char) : Option LetterCase :=
  if char.isLower then some .lower else if char.isUpper then some .upper else none

/-- Cuts a run of letters and digits before a capital behind a small letter, and before the last of
several capitals that a small letter follows. The case of the word so far is that of its last
letter, and `word` holds its characters, last one first. Letters beyond ASCII have no case here:
they are in no option's name, so where they are cut makes no difference. -/
def splitCase (before : Option LetterCase) (word : List Char) : List Char → List (List Char)
  | [] => [word.reverse]
  | [char] => [(char :: word).reverse]
  | char :: next :: rest =>
    let case := (LetterCase.of? char).or before
    if case = some .lower ∧ next.isUpper then
      (char :: word).reverse :: splitCase none [] (next :: rest)
    else if before = some .upper ∧ char.isUpper ∧ next.isLower then
      word.reverse :: splitCase none [char] (next :: rest)
    else splitCase case (char :: word) (next :: rest)

/-- The words of an option name, in lower case. -/
def nameWords (name : List Char) : List (List Char) :=
  (name.splitOnP fun char => !Text.isAlphanumeric char).flatMap fun run =>
    if run.isEmpty then [] else (splitCase none [] run).map fun word => word.map Char.toLower

inductive OptionName where
  | quiet
  | path
deriving DecidableEq

def OptionName.ofText? (name : List Char) : Option OptionName :=
  match nameWords name with
  | [word] =>
    if word = "quiet".toList then some .quiet
    else if word = "path".toList then some .path
    else none
  | _ => none

/-- An argument by its form. -/
inductive Argument where
  /-- Two dashes: no options follow. -/
  | endOfOptions
  /-- Two dashes and a name, with a value if there is an equals sign. -/
  | named (name : List Char) (value : Option (List Char))
  /-- A single dash, with or without letters. There are no such options. -/
  | dashed
  | positional (text : String)
deriving DecidableEq

def Argument.of (text : String) : Argument :=
  match text.toList with
  | ['-', '-'] => .endOfOptions
  | '-' :: '-' :: option =>
    match option.dropWhile (· != '=') with
    | [] => .named option none
    | _ :: value => .named (option.takeWhile (· != '=')) (some value)
  | '-' :: _ => .dashed
  | _ => .positional text

/-- What the arguments read so far ask for. -/
structure Draft where
  path : Option String
  quiet : Bool
  optionsEnded : Bool

namespace Draft

def initial : Draft := ⟨none, false, false⟩

/-- A positional argument is the path, which is given once. -/
def addPositional (draft : Draft) (text : String) : Option Draft :=
  match draft.path with
  | none => some { draft with path := some text }
  | some _ => none

/-- Reads arguments left to right, if all are understood. The option `path` overrides a path given
before it; without a value of its own it takes the next argument, whatever that looks like. -/
def read : Draft → List String → Option Draft
  | draft, [] => some draft
  | draft, text :: rest =>
    if draft.optionsEnded then
      match draft.addPositional text with
      | none => none
      | some draft => read draft rest
    else
      match Argument.of text with
      | .endOfOptions => read { draft with optionsEnded := true } rest
      | .dashed => none
      | .positional text =>
        match draft.addPositional text with
        | none => none
        | some draft => read draft rest
      | .named name value =>
        match OptionName.ofText? name with
        | none => none
        | some .quiet => read { draft with quiet := true } rest
        | some .path =>
          match value with
          | some value => read { draft with path := some (String.ofList value) } rest
          | none =>
            match rest with
            | [] => none
            | next :: rest => read { draft with path := some next } rest

end Draft

structure Options where
  path : String
  quiet : Bool
deriving DecidableEq

/-- The options that arguments ask for, if the arguments are understood and give a path. -/
def Options.ofArguments? (arguments : List String) : Option Options := do
  let draft ← Draft.initial.read arguments
  return ⟨← draft.path, draft.quiet⟩

end PracticeGrammar.CommandLine
