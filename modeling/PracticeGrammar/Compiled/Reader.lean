import PracticeGrammar.Compiled.Focus
import PracticeGrammar.Json.Lexemes

/-! Reading a rule set from its compiled text, one lexeme at a time. The reader is lenient: colons
and commas may be left out, one comma may stand before the first entry of an object or a list, the
values of unknown fields are skipped, and nothing behind the object of rules is read. -/

namespace PracticeGrammar.Compiled
open Json

/-- A reader between two lexemes. -/
structure Reader where
  focus : Focus
  /-- The number of open brackets in a value that is being skipped. -/
  skipping : Option Nat
  /-- A separator has been read, so a value has to follow. -/
  separated : Bool
  /-- The end of the last lexeme that was not a separator. Faults of the text itself are reported
  as distances from here. -/
  base : Nat

namespace Reader

def initial : Reader := ⟨.document, none, false, 0⟩

inductive Outcome where
  | reading (reader : Reader)
  | complete (rules : RuleSet)
  | failed (failure : Failure)

/-- What a token means outside all brackets of a skipped value. -/
inductive SkipStep where
  | pass
  | opened
  | done
  | refused (value : Unskippable)

/-- Colons before a skipped value do not count, and integers beyond 64 bits cannot be skipped. -/
def SkipStep.of : Token → SkipStep
  | .colon => .pass
  | .comma => .refused .comma
  | .closing _ => .refused .closing
  | .opening _ => .opened
  | .scalar (.number (.signed value)) =>
    if (Number.signed value).isWord then .done else .refused .wideSigned
  | .scalar (.number number) => if number.isWord then .done else .refused .wideUnsigned
  | .scalar _ => .done

/-- The reader behind a lexeme that belongs to a value. -/
def proceed (focus : Focus) (lexeme : Lexeme) : Reader := ⟨focus, none, false, lexeme.stop⟩

/-- One lexeme of a skipped value. Brackets only count: either kind closes either. -/
def skip (reader : Reader) (depth : Nat) (lexeme : Lexeme) : Outcome :=
  match depth with
  | 0 =>
    match SkipStep.of lexeme.token with
    | .pass => .reading reader
    | .opened => .reading { reader with skipping := some 1 }
    | .done => .reading (proceed reader.focus lexeme)
    | .refused value => .failed ⟨.unskippable value, lexeme.start - reader.base⟩
  | depth + 1 =>
    match lexeme.token with
    | .opening _ => .reading { reader with skipping := some (depth + 2) }
    | .closing _ =>
      if depth = 0 then .reading (proceed reader.focus lexeme)
      else .reading { reader with skipping := some depth }
    | _ => .reading reader

/-- The reader behind a lexeme that was read, or why it could not be read. -/
def settle (lexeme : Lexeme) : Except Cause Progress → Outcome
  | .error cause => .failed ⟨cause, lexeme.start⟩
  | .ok (.reading focus) => .reading (proceed focus lexeme)
  | .ok (.skipping focus) => .reading { proceed focus lexeme with skipping := some 0 }
  | .ok (.complete rules) => .complete rules

/-- One lexeme outside skipped values. -/
def take (reader : Reader) (lexeme : Lexeme) : Outcome :=
  match reader.focus.expectation.accept reader.separated lexeme.token with
  | .error cause => .failed ⟨cause, lexeme.start⟩
  | .ok .separator => .reading { reader with separated := true }
  | .ok .close => settle lexeme reader.focus.close
  | .ok (.head head) => settle lexeme (reader.focus.advance head)

def step (reader : Reader) (lexeme : Lexeme) : Outcome :=
  match reader.skipping with
  | none => reader.take lexeme
  | some depth => reader.skip depth lexeme

/-- The failure of a text that ends before its rules do. -/
def atEnding (reader : Reader) : Ending → Failure
  | .broken flaw => ⟨.lexical flaw.fault, flaw.offset - reader.base⟩
  | .finished offset =>
    match reader.skipping with
    | none => ⟨.textEnd, offset⟩
    | some _ => ⟨.unskippable .textEnd, offset - reader.base⟩

def run (ending : Ending) : Reader → List Lexeme → Except Failure RuleSet
  | reader, [] => .error (reader.atEnding ending)
  | reader, lexeme :: rest =>
    match reader.step lexeme with
    | .reading next => run ending next rest
    | .complete rules => .ok rules
    | .failed failure => .error failure

end Reader

/-- The rule set that a text writes down. -/
def read (text : List Char) : Except Failure RuleSet :=
  let lexemes := Lexemes.ofText text
  Reader.run lexemes.ending .initial lexemes.items

end PracticeGrammar.Compiled
