import PracticeGrammar.Compiled.Shape
import PracticeGrammar.Json.Fault
import PracticeGrammar.Text.Plain

/-! Why the text of a rule set is not read, and the messages that say so. -/

namespace PracticeGrammar.Compiled
open Json

/-- A value that a skipped field cannot begin with. -/
inductive Unskippable where
  | closing
  | comma
  | wideUnsigned
  | wideSigned
  | textEnd
deriving DecidableEq

def Unskippable.mark : Unskippable → Char
  | .closing => 'R'
  | .comma => 'C'
  | .wideUnsigned => 'U'
  | .wideSigned => 'I'
  | .textEnd => 'E'

inductive Cause where
  | lexical (fault : Fault)
  | textEnd
  /-- A colon, comma or closing bracket where none may stand. -/
  | misplacedColon
  | misplacedComma
  | misplacedClosing (bracket : Bracket)
  | unskippable (value : Unskippable)
  /-- A value in the place of a field name. -/
  | noFieldName (head : Head)
  /-- A null for a shape that has no empty value. -/
  | noDefault (shape : Shape)
  /-- A string that does not spell the number or truth value it stands for. -/
  | misspelled (shape : Shape)
  | unexpectedString (shape : Shape)
  | unexpectedTruth (shape : Shape)
  | unexpectedNumber (shape : Shape)
  | unexpectedOpening (shape : Shape) (bracket : Bracket)
  /-- A tag alone, as a string, for a production. -/
  | bareTag (kind : Production.Kind)
  | unknownTag (tag : String)
  /-- A production object without a tag. -/
  | noTag
  /-- A second name in a production object whose payload is complete. -/
  | surplusField
  | missingField (shape : Shape) (field : String)
deriving DecidableEq

namespace Cause

/-- The kinds of values that may open with a bracket, where a value of the shape may not. -/
def openingWanted (shape : Shape) : Bracket → String
  | .list =>
    match shape with
    | .production | .child => "enum with variant selected"
    | _ => "array, list, tuple, or slice"
  | .object =>
    match shape with
    | .number | .truth => "map, enum, struct, or tuple"
    | _ => "map, enum, or struct"

def scalarText : Scalar → String
  | .null => "null"
  | .bool value => "bool " ++ if value then "true" else "false"
  | .string value => "string " ++ value
  | .number value => value.typeName ++ " " ++ value.text

def headText : Head → String
  | .scalar value => "scalar " ++ scalarText value
  | .opening .object => "object start"
  | .opening .list => "list start"

def closingChar : Bracket → Char
  | .object => '}'
  | .list => ']'

def kindList : String := ", ".intercalate (Production.Kind.all.map Production.Kind.tag)

def unexpectedChar (char : Char) (wanted : String) : List Char :=
  "Unexpected character: got '".toList ++ Text.red [char] ++ ("', wanted " ++ wanted).toList

def unexpectedEnd (wanted : String) : List Char := ("Unexpected end of file: wanted " ++ wanted).toList

def invalidEncoding (reason : String) : List Char := ("Invalid UTF-8 encoding: " ++ reason).toList

def unsupported (shape : Shape) (wanted : String) : List Char :=
  ("Unsupported type: got " ++ shape.name ++ ", wanted " ++ wanted).toList

def failedOn (shape : Shape) (reason : String) : List Char :=
  ("Operation failed on shape " ++ shape.name ++ ": " ++ reason).toList

def wrongShape (shape : Shape) (got : String) : List Char :=
  ("Wrong shape: expected " ++ shape.name ++ ", but got " ++ got).toList

def faultMessage : Fault → List Char
  | .strayChar char => unexpectedChar char "valid JSON character"
  | .badCodeUnit => unexpectedChar '?' "valid JSON character"
  | .unclosedString => unexpectedEnd "in string literal"
  | .endInEscape => unexpectedEnd "in string escape"
  | .endInCodeUnit => unexpectedEnd "in Unicode escape sequence"
  | .splitCodeUnit => invalidEncoding "invalid UTF-8 in Unicode escape"
  | .loneHighSurrogate => invalidEncoding "high surrogate not followed by low surrogate"
  | .loneLowSurrogate => invalidEncoding "unexpected low surrogate"
  | .numberOutOfRange nearest => ("Number out of range: " ++ nearest.text).toList

/-- The message of a cause. Characters and tags taken from the text are coloured. -/
def message : Cause → List Char
  | .lexical fault => faultMessage fault
  | .textEnd => unexpectedEnd "any value (got EOF)"
  | .misplacedColon => unexpectedChar ':' "a value, not a colon"
  | .misplacedComma => unexpectedChar ',' "<value or key>"
  | .misplacedClosing bracket => unexpectedChar (closingChar bracket) "a value"
  | .unskippable value => unexpectedChar value.mark "value"
  | .noFieldName head => ("Unexpected " ++ headText head ++ ", wanted scalar or object close").toList
  | .noDefault shape => failedOn shape "type does not implement Default"
  | .misspelled shape => failedOn shape "Failed to parse string value"
  | .unexpectedString shape => wrongShape shape "String"
  | .unexpectedTruth shape => wrongShape shape "bool"
  | .unexpectedNumber shape => unsupported shape "numeric type"
  | .unexpectedOpening shape bracket => unsupported shape (openingWanted shape bracket)
  | .bareTag kind =>
    ("Field 'Production::0' in variant '" ++ kind.tag ++ "' was not initialized").toList
  | .unknownTag tag =>
    "Enum variant not found: ".toList ++ Text.red tag.toList
      ++ (" in enum Production. Available variants: [" ++ kindList ++ "]").toList
  | .noTag => "Value 'Production' was not initialized".toList
  | .surplusField => "Feature not yet implemented: object key for non-struct/map".toList
  | .missingField shape field =>
    ("Field '" ++ shape.name ++ "::" ++ field ++ "' was not initialized").toList

end Cause

/-- A cause and the octet of the text that it is reported at. -/
structure Failure where
  cause : Cause
  offset : Nat
deriving DecidableEq

/-- The plain text that reports a failure. -/
def Failure.detail (failure : Failure) : String :=
  String.ofList
    (Text.plain (failure.cause.message ++ (" at byte " ++ toString failure.offset).toList))

end PracticeGrammar.Compiled
