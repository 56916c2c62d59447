import PracticeGrammar.Binary64.Basic

/-! What can be wrong with a JSON text on the level of tokens. -/

namespace PracticeGrammar.Json

inductive Fault where
  /-- A character that begins no token. -/
  | strayChar (char : Char)
  | unclosedString
  | endInEscape
  | endInCodeUnit
  /-- The four octets of a code unit end within a character. -/
  | splitCodeUnit
  | badCodeUnit
  /-- A high surrogate without a low surrogate behind it. -/
  | loneHighSurrogate
  | loneLowSurrogate
  /-- No number, or an integer beyond the widest type; with the nearest number, or zero. -/
  | numberOutOfRange (nearest : Binary64)
deriving DecidableEq

end PracticeGrammar.Json
