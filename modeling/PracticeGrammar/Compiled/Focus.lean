import PracticeGrammar.Compiled.Draft
import PracticeGrammar.RuleSet

/-! Where the reading of a rule set stands. What is open at any moment is kept as the text around a
hole: a rule body, an item of a list, or the child of a payload object. A payload object goes on
behind its own closing bracket, up to that of its production. -/

namespace PracticeGrammar.Compiled
open Json

/-- A production whose children stand in a list. -/
inductive Container where
  | seq
  | alt
deriving DecidableEq

def Container.build : Container → List Production → Production
  | .seq, children => .seq children
  | .alt, children => .alt children

/-- Where a production stands, with everything read around it. -/
inductive Place where
  /-- The body of a rule, behind the rules that are complete. -/
  | body (done : RuleSet) (name : String)
  /-- An item of a list, behind its earlier items, last one first. -/
  | item (container : Container) (before : List Production) (outer : Place)
  /-- The child in a payload object. `inside` says that the object's own bracket is still open. -/
  | child (wrapper : Wrapper) (inside : Bool) (outer : Place)

/-- What is read next. -/
inductive Focus where
  /-- The value that is the whole text. -/
  | document
  /-- A rule name, or the end of all rules. -/
  | rules (done : RuleSet)
  | production (place : Place)
  /-- An item of a list, or its end. -/
  | items (container : Container) (before : List Production) (outer : Place)
  /-- The tag of a production. -/
  | tag (outer : Place)
  | payload (kind : Production.Kind) (outer : Place)
  /-- The closing bracket of a production that is complete. -/
  | closing (finished : Production) (outer : Place)
  /-- A field name in a payload object, or its end. -/
  | fields (draft : Draft) (inside : Bool) (outer : Place)
  | field (gap : Gap) (child : Option Production) (inside : Bool) (outer : Place)

/-- Which lexemes may precede or take the place of a value. -/
inductive Expectation where
  | value
  /-- A field name: behind a comma, or a closing bracket instead. -/
  | key
  /-- The value of a field, behind a colon. -/
  | fieldValue
  /-- An item of a list: behind a comma, or a closing bracket instead. -/
  | item
deriving DecidableEq

def Focus.expectation : Focus → Expectation
  | .document => .value
  | .rules _ | .tag _ | .closing _ _ | .fields _ _ _ => .key
  | .items _ _ _ => .item
  | .production _ | .payload _ _ | .field _ _ _ _ => .fieldValue

/-- A lexeme in the light of an expectation. -/
inductive Accepted where
  | separator
  | close
  | head (head : Head)

namespace Expectation

/-- A separator stands at most once, and only the value that it announces may follow it. -/
def accept (expectation : Expectation) (separated : Bool) : Token → Except Cause Accepted
  | .colon =>
    if expectation = .fieldValue ∧ separated = false then .ok .separator else .error .misplacedColon
  | .comma =>
    if (expectation = .key ∨ expectation = .item) ∧ separated = false then .ok .separator
    else .error .misplacedComma
  | .closing .object =>
    if expectation = .key ∧ separated = false then .ok .close
    else .error (.misplacedClosing .object)
  | .closing .list =>
    if expectation = .item ∧ separated = false then .ok .close
    else .error (.misplacedClosing .list)
  | .opening bracket => .ok (.head (.opening bracket))
  | .scalar scalar => .ok (.head (.scalar scalar))

end Expectation

/-- What a value or a closing bracket leads to. -/
inductive Progress where
  | reading (focus : Focus)
  /-- An unknown field, whose value is skipped before reading goes on. -/
  | skipping (focus : Focus)
  | complete (rules : RuleSet)

namespace Focus

/-- Puts a finished production into its place. -/
def deliver (finished : Production) : Place → Focus
  | .body done name => .rules (done.insert name finished)
  | .item container before outer => .items container (finished :: before) outer
  | .child wrapper inside outer => .fields ⟨wrapper, some finished⟩ inside outer

def shapeAt : Place → Shape
  | .body _ _ | .item _ _ _ => .production
  | .child _ _ _ => .child

/-- The beginning of a production. -/
def enter (place : Place) : Head → Except Cause Focus
  | .opening .object => .ok (.tag place)
  | head => .error ((shapeAt place).refuse head)

def fieldName : Head → Except Cause String
  | .scalar (.string name) => .ok name
  | head => .error (.noFieldName head)

/-- The payload of a scalar tag. -/
def enterText (build : String → Production) (outer : Place) (head : Head) : Except Cause Focus :=
  (readText head).map fun text => .closing (build text) outer

/-- The payload of a list tag; null is the empty list. -/
def enterList (container : Container) (outer : Place) : Head → Except Cause Focus
  | .opening .list => .ok (.items container [] outer)
  | .scalar .null => .ok (.closing (container.build []) outer)
  | head => .error (Shape.productions.refuse head)

/-- The payload object of a tag. -/
def enterDraft (draft : Draft) (outer : Place) : Head → Except Cause Focus
  | .opening .object => .ok (.fields draft true outer)
  | head => .error (draft.wrapper.shape.refuse head)

def enterPayload (kind : Production.Kind) (outer : Place) (head : Head) : Except Cause Focus :=
  match kind with
  | .lit => enterText .lit outer head
  | .ref => enterText .ref outer head
  | .seq => enterList .seq outer head
  | .alt => enterList .alt outer head
  | .opt => enterDraft ⟨.opt none, none⟩ outer head
  | .cond => enterDraft ⟨.cond none none, none⟩ outer head
  | .span => enterDraft ⟨.span none, none⟩ outer head

/-- Turns to the field of a given name; an unknown field is skipped. -/
def enterField (draft : Draft) (inside : Bool) (outer : Place) (name : String) : Progress :=
  match draft.wrapper.field? name with
  | some .child => .reading (.production (.child draft.wrapper inside outer))
  | some (.scalar gap) => .reading (.field gap draft.child inside outer)
  | none => .skipping (.fields draft inside outer)

/-- A value, or a field name, begins. -/
def advance (head : Head) : Focus → Except Cause Progress
  | .document =>
    match head with
    | .opening .object => .ok (.reading (.rules .empty))
    | .scalar .null => .ok (.complete .empty)
    | _ => .error (Shape.rules.refuse head)
  | .rules done => (fieldName head).map fun name => .reading (.production (.body done name))
  | .production place => (enter place head).map .reading
  | .items container before outer => (enter (.item container before outer) head).map .reading
  | .tag outer =>
    match fieldName head with
    | .error cause => .error cause
    | .ok name =>
      match Production.Kind.ofTag? name with
      | some kind => .ok (.reading (.payload kind outer))
      | none => .error (.unknownTag name)
  | .payload kind outer => (enterPayload kind outer head).map .reading
  | .closing _ _ =>
    match fieldName head with
    | .error cause => .error cause
    | .ok _ => .error .surplusField
  | .fields draft inside outer => (fieldName head).map (enterField draft inside outer)
  | .field gap child inside outer =>
    (gap.fill head).map fun wrapper => .reading (.fields ⟨wrapper, child⟩ inside outer)

/-- An object or a list ends. What is not inside one has no end of its own. -/
def close : Focus → Except Cause Progress
  | .rules done => .ok (.complete done)
  | .items container before outer => .ok (.reading (.closing (container.build before.reverse) outer))
  | .tag _ => .error .noTag
  | .closing finished outer => .ok (.reading (deliver finished outer))
  | .fields draft true outer => .ok (.reading (.fields draft false outer))
  | .fields draft false outer => draft.finish.map fun finished => .reading (deliver finished outer)
  | focus => .ok (.reading focus)

end Focus

end PracticeGrammar.Compiled
