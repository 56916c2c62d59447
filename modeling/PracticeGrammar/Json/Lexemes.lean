import PracticeGrammar.Json.Scanned

/-! A JSON text as its lexemes. Scanning ends at the end of the text or at the first place where no
token can be read, so a reader that stops earlier never learns of that place. -/

namespace PracticeGrammar.Json

inductive Ending where
  | finished (offset : Nat)
  | broken (flaw : Flaw)
deriving DecidableEq

structure Lexemes where
  items : List Lexeme
  ending : Ending
deriving DecidableEq

namespace Lexemes
open Scanned

/-- The lexemes of a text that begins at a given octet, behind those found so far, last one first. -/
def scanFrom (text : List Char) (offset : Nat) (found : List Lexeme) : Lexemes :=
  let start := offset + (text.takeWhile isBlank).length
  match body : text.dropWhile isBlank with
  | [] => ⟨found.reverse, .finished start⟩
  | first :: rest =>
    match read : token start first rest with
    | .error flaw => ⟨found.reverse, .broken flaw⟩
    | .ok scanned =>
      have := rest_shorter body read
      scanFrom scanned.rest scanned.stop (⟨scanned.value, start, scanned.stop⟩ :: found)
termination_by text.length

def ofText (text : List Char) : Lexemes := scanFrom text 0 []

end Lexemes
end PracticeGrammar.Json
