import PracticeGrammar.Json.Fault

/-! Escapes in JSON strings. A backslash gives the character behind it another meaning. Four
characters stand for control characters, and `u` introduces a code unit in four hexadecimal digits,
two such units for a character beyond the first plane. Any other character stands for itself. -/

namespace PracticeGrammar.Json

/-- An escape as it stands behind the backslash: its meaning and its length in characters. -/
structure Escape where
  value : Char
  length : Nat
deriving DecidableEq

/-- A fault with its distance in octets from the character behind the backslash. -/
structure EscapeFault where
  fault : Fault
  distance : Nat
deriving DecidableEq

namespace Escape

def hexValue? (digit : Char) : Option Nat :=
  if digit.isDigit then some (digit.toNat - '0'.toNat)
  else if 'a' ≤ digit ∧ digit ≤ 'f' then some (digit.toNat - 'a'.toNat + 10)
  else if 'A' ≤ digit ∧ digit ≤ 'F' then some (digit.toNat - 'A'.toNat + 10)
  else none

def hexNumber? (digits : List Char) : Option Nat :=
  digits.foldl (fun value digit => do return 16 * (← value) + (← hexValue? digit)) (some 0)

/-- Four characters as a number. A plus sign may stand for the first digit. -/
def codeUnit? : List Char → Option Nat
  | '+' :: digits => hexNumber? digits
  | digits => hexNumber? digits

/-- The characters in the first octets of a text, or why there are none. -/
def takeOctets : Nat → List Char → Except Fault (List Char)
  | 0, _ => .ok []
  | _ + 1, [] => .error .endInCodeUnit
  | count + 1, char :: rest =>
    match takeOctets (count + 1 - char.utf8Size) rest with
    | .error fault => .error fault
    | .ok chars => if count + 1 < char.utf8Size then .error .splitCodeUnit else .ok (char :: chars)

/-- The code unit at the head of a text. -/
def readCodeUnit (text : List Char) : Except Fault Nat :=
  match takeOctets 4 text with
  | .error fault => .error fault
  | .ok chars =>
    match codeUnit? chars with
    | none => .error .badCodeUnit
    | some unit => .ok unit

def isHighSurrogate (unit : Nat) : Bool := decide (0xD800 ≤ unit ∧ unit < 0xDC00)
def isLowSurrogate (unit : Nat) : Bool := decide (0xDC00 ≤ unit ∧ unit < 0xE000)

def joinSurrogates (high low : Nat) : Nat := 0x10000 + (high - 0xD800) * 0x400 + (low - 0xDC00)

/-- The escape behind a high surrogate, whose text follows. -/
def readLowSurrogate (high : Nat) (text : List Char) : Except EscapeFault Escape :=
  match text with
  | '\\' :: 'u' :: rest =>
    match readCodeUnit rest with
    | .error .endInCodeUnit => .error ⟨.loneHighSurrogate, 1⟩
    | .error fault => .error ⟨fault, 7⟩
    | .ok low =>
      if isLowSurrogate low then .ok ⟨Char.ofNat (joinSurrogates high low), 11⟩
      else .error ⟨.loneHighSurrogate, 1⟩
  | _ => .error ⟨.loneHighSurrogate, 1⟩

/-- The escape whose text stands behind a backslash. -/
def read : List Char → Except EscapeFault Escape
  | [] => .error ⟨.endInEscape, 0⟩
  | 'u' :: rest =>
    match readCodeUnit rest with
    | .error fault => .error ⟨fault, 1⟩
    | .ok unit =>
      if isHighSurrogate unit then readLowSurrogate unit (rest.drop 4)
      else if isLowSurrogate unit then .error ⟨.loneLowSurrogate, 1⟩
      else .ok ⟨Char.ofNat unit, 5⟩
  | 'b' :: _ => .ok ⟨'\x08', 1⟩
  | 'f' :: _ => .ok ⟨'\x0c', 1⟩
  | 'n' :: _ => .ok ⟨'\n', 1⟩
  | 'r' :: _ => .ok ⟨'\r', 1⟩
  | 't' :: _ => .ok ⟨'\t', 1⟩
  | char :: _ => .ok ⟨char, 1⟩

end Escape
end PracticeGrammar.Json
