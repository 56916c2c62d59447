import PracticeGrammar.Text.Blank

/-! Plain one-line text. Terminal control sequences are dropped and the remaining words are joined
by single spaces. A sequence is an escape character, an opening bracket, and everything up to the
first ASCII letter; an escape character before anything else takes just that one character with it. -/

namespace PracticeGrammar.Text

def escape : Char := '\x1b'

/-- Where in a control sequence a reader stands. -/
inductive Control where
  | outside
  | afterEscape
  | inSequence
deriving DecidableEq

/-- One character further. -/
def Control.next : Control → Char → Control
  | .outside, char => if char = escape then .afterEscape else .outside
  | .afterEscape, char => if char = '[' then .inSequence else .outside
  | .inSequence, char => if char.isAlpha then .outside else .inSequence

/-- The characters outside control sequences, for a text read from a given place. A sequence that
the end of the text cuts off is dropped as far as it goes. -/
def visible : Control → List Char → List Char
  | _, [] => []
  | control, char :: rest =>
    let behind := visible (control.next char) rest
    if control = .outside ∧ char ≠ escape then char :: behind else behind

/-- The words of a text outside its control sequences, on one line. -/
def plain (text : List Char) : List Char := fold (visible .outside text)

/-- A text between the sequences that turn the colour of a terminal red and back. -/
def red (text : List Char) : List Char :=
  escape :: "[31m".toList ++ text ++ escape :: "[39m".toList

end PracticeGrammar.Text
