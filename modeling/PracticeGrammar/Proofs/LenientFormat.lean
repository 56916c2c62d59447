import PracticeGrammar.Compiled.Focus

/-! The token sequences that are taken for rule sets, without regard to how they are read. They
take in the compiled format and more. Commas and colons may be missing, scalars may be null or
spelt out in strings, fields of unknown names stand among the others, scalar fields may be
repeated, and the fields of a payload object go on behind its closing bracket. A text may also be
null as a whole, and may go on in any way behind the sequence. -/

namespace PracticeGrammar.Compiled
open Json

inductive LenientText : Scalar → String → Prop where
  | null : LenientText .null ""
  | string (text : String) : LenientText (.string text) text

inductive LenientNumber : Scalar → Binary64 → Prop where
  | null : LenientNumber .null .zero
  | number (value : Number) : LenientNumber (.number value) value.toBinary64
  | string {text value} (spelled : Binary64.ofText? text.toList = some value) :
      LenientNumber (.string text) value

inductive LenientTruth : Scalar → Bool → Prop where
  | null : LenientTruth .null false
  | bool (value : Bool) : LenientTruth (.bool value) value
  | string (value : Bool) : LenientTruth (.string (if value then "true" else "false")) value

def isBracket : Token → Bool
  | .opening _ | .closing _ => true
  | _ => false

def isWord : Scalar → Bool
  | .number value => value.isWord
  | _ => true

/-- The beginning of a value that no field takes, with the number of its open brackets. Brackets of
either kind close those of the other. -/
inductive Skipping : Nat → List Token → Prop where
  | start : Skipping 0 []
  | colon {tokens} (front : Skipping 0 tokens) : Skipping 0 (tokens ++ [.colon])
  | opening {depth tokens} (bracket : Bracket) (front : Skipping depth tokens) :
      Skipping (depth + 1) (tokens ++ [.opening bracket])
  | closing {depth tokens} (bracket : Bracket) (front : Skipping (depth + 2) tokens) :
      Skipping (depth + 1) (tokens ++ [.closing bracket])
  | inside {depth tokens token} (front : Skipping (depth + 1) tokens) (level : isBracket token = false) :
      Skipping (depth + 1) (tokens ++ [token])

/-- A value that no field takes. A number alone has to fit in 64 bits. -/
inductive Skipped : List Token → Prop where
  | scalar {tokens value} (front : Skipping 0 tokens) (word : isWord value = true) :
      Skipped (tokens ++ [.scalar value])
  | closed {tokens} (bracket : Bracket) (front : Skipping 1 tokens) :
      Skipped (tokens ++ [.closing bracket])

def optional (token : Token) (present : Bool) : List Token := if present then [token] else []

/-- A name, with or without the separators next to it. -/
def heading (comma : Bool) (name : String) (colon : Bool) : List Token :=
  optional .comma comma ++ .scalar (.string name) :: optional .colon colon

def braces (body : List Token) : List Token := .opening .object :: (body ++ [.closing .object])

def Container.kind : Container → Production.Kind
  | .seq => .seq
  | .alt => .alt

namespace Wrapper

def kind : Wrapper → Production.Kind
  | .opt _ => .opt
  | .cond _ _ => .cond
  | .span _ => .span

def names : Wrapper → List String
  | .opt _ => ["f", "opt"]
  | .cond _ _ => ["flag", "inv", "cond"]
  | .span _ => ["class", "span"]

/-- The wrappers of which nothing is known yet. -/
def bare : List Wrapper := [.opt none, .cond none none, .span none]

end Wrapper

/-- A payload object of which nothing is missing. -/
inductive Whole : Draft → Production → Prop where
  | opt (probability : Binary64) (child : Production) :
      Whole ⟨.opt (some probability), some child⟩ (.opt probability child)
  | cond (flag : String) (inverted : Bool) (child : Production) :
      Whole ⟨.cond (some flag) (some inverted), some child⟩ (.cond flag inverted child)
  | span (label : String) (child : Production) :
      Whole ⟨.span (some label), some child⟩ (.span label child)

mutual
/-- What stands between the brackets of a production. -/
inductive LenientBody : Production → List Token → Prop where
  | lit {comma colon scalar text} (read : LenientText scalar text) :
      LenientBody (.lit text) (heading comma "lit" colon ++ [.scalar scalar])
  | ref {comma colon scalar name} (read : LenientText scalar name) :
      LenientBody (.ref name) (heading comma "ref" colon ++ [.scalar scalar])
  | null {comma colon} (container : Container) :
      LenientBody (container.build []) (heading comma container.kind.tag colon ++ [.scalar .null])
  | list {comma colon children items} (container : Container) (each : LenientItems children items) :
      LenientBody (container.build children)
        (heading comma container.kind.tag colon ++ .opening .list :: (items ++ [.closing .list]))
  | wrapped {draft production fields} (filled : LenientFields draft false fields)
      (whole : Whole draft production) : LenientBody production fields

inductive LenientItems : List Production → List Token → Prop where
  | nil : LenientItems [] []
  | snoc {children child items body comma} (front : LenientItems children items)
      (last : LenientBody child body) :
      LenientItems (children ++ [child]) (items ++ (optional .comma comma ++ braces body))

/-- The tag and the payload object of an optional, a conditional or a span, up to some field. The
flag says whether the object's own bracket is still open. -/
inductive LenientFields : Draft → Bool → List Token → Prop where
  | start {wrapper comma colon} (bare : wrapper ∈ Wrapper.bare) : LenientFields ⟨wrapper, none⟩ true
      (heading comma wrapper.kind.tag colon ++ [.opening .object])
  | leave {draft fields} (front : LenientFields draft true fields) :
      LenientFields draft false (fields ++ [.closing .object])
  | child {wrapper known child inside fields body comma colon}
      (front : LenientFields ⟨wrapper, known⟩ inside fields) (below : LenientBody child body) :
      LenientFields ⟨wrapper, some child⟩ inside
        (fields ++ (heading comma wrapper.kind.tag colon ++ braces body))
  | probability {known child inside fields scalar value comma colon}
      (front : LenientFields ⟨.opt known, child⟩ inside fields) (read : LenientNumber scalar value) :
      LenientFields ⟨.opt (some value), child⟩ inside
        (fields ++ (heading comma "f" colon ++ [.scalar scalar]))
  | flag {known inverted child inside fields scalar value comma colon}
      (front : LenientFields ⟨.cond known inverted, child⟩ inside fields)
      (read : LenientText scalar value) : LenientFields ⟨.cond (some value) inverted, child⟩ inside
        (fields ++ (heading comma "flag" colon ++ [.scalar scalar]))
  | inverted {flag known child inside fields scalar value comma colon}
      (front : LenientFields ⟨.cond flag known, child⟩ inside fields)
      (read : LenientTruth scalar value) : LenientFields ⟨.cond flag (some value), child⟩ inside
        (fields ++ (heading comma "inv" colon ++ [.scalar scalar]))
  | label {known child inside fields scalar value comma colon}
      (front : LenientFields ⟨.span known, child⟩ inside fields) (read : LenientText scalar value) :
      LenientFields ⟨.span (some value), child⟩ inside
        (fields ++ (heading comma "class" colon ++ [.scalar scalar]))
  | unknown {draft inside fields name value comma} (front : LenientFields draft inside fields)
      (unknown : name ∉ draft.wrapper.names) (skipped : Skipped value) :
      LenientFields draft inside
        (fields ++ (optional .comma comma ++ .scalar (.string name) :: value))
end

/-- Rules between the brackets of a text. A rule replaces an earlier one of its name. -/
inductive LenientRules : RuleSet → List Token → Prop where
  | nil : LenientRules .empty []
  | snoc {done rules name production body comma colon} (front : LenientRules done rules)
      (last : LenientBody production body) :
      LenientRules (done.insert name production) (rules ++ (heading comma name colon ++ braces body))

inductive LenientDocument : RuleSet → List Token → Prop where
  | null : LenientDocument .empty [.scalar .null]
  | object {rules tokens} (each : LenientRules rules tokens) : LenientDocument rules (braces tokens)

end PracticeGrammar.Compiled
