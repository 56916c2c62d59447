import PracticeGrammar.Compiled.Cause
import PracticeGrammar.Numeral

/-! Productions in the making: scalar payloads, and the payload objects of optionals, conditionals
and spans with the fields read so far. -/

namespace PracticeGrammar.Compiled
open Json

/-- Why a value of the given shape cannot begin with the given token. -/
def Shape.refuse (shape : Shape) : Head → Cause
  | .scalar .null => .noDefault shape
  | .scalar (.bool _) => .unexpectedTruth shape.bare
  | .scalar (.number _) => .unexpectedNumber shape.bare
  | .scalar (.string value) =>
    match shape.bare with
    | .production =>
      match Production.Kind.ofTag? value with
      | some kind => .bareTag kind
      | none => .unknownTag value
    | .number => .misspelled .number
    | .truth => .misspelled .truth
    | other => .unexpectedString other
  | .opening bracket => .unexpectedOpening shape.bare bracket

/-- A text; null is the empty text. -/
def readText : Head → Except Cause String
  | .scalar .null => .ok ""
  | .scalar (.string value) => .ok value
  | head => .error (Shape.text.refuse head)

/-- A number, also spelt out in a string; null is zero. -/
def readNumber : Head → Except Cause Binary64
  | .scalar .null => .ok .zero
  | .scalar (.number value) => .ok value.toBinary64
  | .scalar (.string value) =>
    match Binary64.ofText? value.toList with
    | some number => .ok number
    | none => .error (.misspelled .number)
  | head => .error (Shape.number.refuse head)

/-- A truth value, also spelt out in a string; null is false. -/
def readTruth : Head → Except Cause Bool
  | .scalar .null => .ok false
  | .scalar (.bool value) => .ok value
  | .scalar (.string value) =>
    if value = "true" then .ok true
    else if value = "false" then .ok false
    else .error (.misspelled .truth)
  | head => .error (Shape.truth.refuse head)

/-- A production around one child, without the child and with the other fields given so far. -/
inductive Wrapper where
  | opt (probability : Option Binary64)
  | cond (flag : Option String) (inverted : Option Bool)
  | span (label : Option String)
deriving DecidableEq

/-- A wrapper of which one scalar field is about to be read. -/
inductive Gap where
  | probability
  | flag (inverted : Option Bool)
  | inverted (flag : Option String)
  | label
deriving DecidableEq

/-- A known field of a wrapper: its child, or a scalar. -/
inductive Field where
  | child
  | scalar (gap : Gap)
deriving DecidableEq

namespace Wrapper

def shape : Wrapper → Shape
  | .opt _ => .optional
  | .cond _ _ => .conditional
  | .span _ => .span

/-- The field of a given name, if the wrapper has one. -/
def field? : Wrapper → String → Option Field
  | .opt _, name =>
    if name = "f" then some (.scalar .probability)
    else if name = "opt" then some .child
    else none
  | .cond flag inverted, name =>
    if name = "flag" then some (.scalar (.flag inverted))
    else if name = "inv" then some (.scalar (.inverted flag))
    else if name = "cond" then some .child
    else none
  | .span _, name =>
    if name = "class" then some (.scalar .label)
    else if name = "span" then some .child
    else none

end Wrapper

/-- Reads the open field. A value read before is replaced. -/
def Gap.fill (head : Head) : Gap → Except Cause Wrapper
  | .probability => (readNumber head).map fun value => .opt (some value)
  | .flag known => (readText head).map fun value => .cond (some value) known
  | .inverted known => (readTruth head).map fun value => .cond known (some value)
  | .label => (readText head).map fun value => .span (some value)

/-- A payload object with the fields read so far. -/
structure Draft where
  wrapper : Wrapper
  child : Option Production

namespace Draft

/-- The finished production, or the first field that is missing. -/
def finish : Draft → Except Cause Production
  | ⟨.opt none, _⟩ => .error (.missingField .optional "f")
  | ⟨.opt (some _), none⟩ => .error (.missingField .optional "opt")
  | ⟨.opt (some probability), some child⟩ => .ok (.opt probability child)
  | ⟨.cond none _, _⟩ => .error (.missingField .conditional "flag")
  | ⟨.cond (some _) none, _⟩ => .error (.missingField .conditional "inv")
  | ⟨.cond (some _) (some _), none⟩ => .error (.missingField .conditional "cond")
  | ⟨.cond (some flag) (some inverted), some child⟩ => .ok (.cond flag inverted child)
  | ⟨.span none, _⟩ => .error (.missingField .span "class")
  | ⟨.span (some _), none⟩ => .error (.missingField .span "span")
  | ⟨.span (some label), some child⟩ => .ok (.span label child)

end Draft
end PracticeGrammar.Compiled
