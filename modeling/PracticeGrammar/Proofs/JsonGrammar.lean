import Mathlib.Data.Nat.Digits.Defs
import Mathlib.Data.Rat.Defs
import PracticeGrammar.Json.Token
import PracticeGrammar.Numeral

/-! JSON texts by the grammar of the format, without regard to how they are read. A value has one
sequence of marks, the terminal symbols of the grammar; a text spells its marks one after another,
with white space before, between and behind them. Strings leave a choice of escapes, and an escape
need not stand for a character: it may be a surrogate that is not one of a pair. -/

namespace PracticeGrammar

namespace Numeral

/-- The numbers of the grammar: no plus sign in front, no idle zero, no missing digits. -/
structure IsStandard (numeral : Numeral) : Prop where
  unsigned : numeral.sign ≠ some .plus
  whole : numeral.whole = ['0'] ∨ numeral.whole ≠ [] ∧ numeral.whole.head? ≠ some '0'
  wholeDigits : ∀ char ∈ numeral.whole, char.isDigit = true
  fraction : ∀ digits ∈ numeral.fraction, digits ≠ [] ∧ ∀ char ∈ digits, char.isDigit = true
  exponent : ∀ part ∈ numeral.exponent, part.digits ≠ [] ∧ ∀ char ∈ part.digits, char.isDigit = true

def signText : Option Sign → List Char
  | none => []
  | some .plus => ['+']
  | some .minus => ['-']

def fractionText : Option (List Char) → List Char
  | none => []
  | some digits => '.' :: digits

def exponentText (letter : Char) : Option WrittenExponent → List Char
  | none => []
  | some part => letter :: (signText part.sign ++ part.digits)

def text (numeral : Numeral) (letter : Char) : List Char :=
  signText numeral.sign ++
    (numeral.whole ++ (fractionText numeral.fraction ++ exponentText letter numeral.exponent))

/-- The number that a row of digits denotes, the last of them being the ones. -/
def natural (digits : List Char) : ℕ :=
  Nat.ofDigits 10 (digits.reverse.map fun digit => digit.toNat - '0'.toNat)

def signed : Option Sign → ℚ → ℚ
  | some .minus, absolute => -absolute
  | _, absolute => absolute

def fractionValue : Option (List Char) → ℚ
  | none => 0
  | some digits => natural digits / 10 ^ digits.length

def exponentScale : Option WrittenExponent → ℚ
  | none => 1
  | some ⟨some .minus, digits⟩ => 1 / 10 ^ natural digits
  | some ⟨_, digits⟩ => 10 ^ natural digits

/-- The number that a numeral denotes, before any rounding. -/
def exactValue (numeral : Numeral) : ℚ :=
  signed numeral.sign
    ((natural numeral.whole + fractionValue numeral.fraction) * exponentScale numeral.exponent)

/-- Numerals without a point and without an exponent denote integers of at most 128 bits. -/
def InRange (numeral : Numeral) : Prop :=
  numeral.fraction = none → numeral.exponent = none →
    -2 ^ 127 ≤ numeral.exactValue ∧ numeral.exactValue < 2 ^ 128

instance (numeral : Numeral) : Decidable numeral.InRange :=
  inferInstanceAs (Decidable (numeral.fraction = none → numeral.exponent = none →
    -2 ^ 127 ≤ numeral.exactValue ∧ numeral.exactValue < 2 ^ 128))

end Numeral

namespace Json

/-- What is quoted: a string, or what cannot be one because some surrogate in it, of which the first
is named, is not one of a pair. -/
inductive Content where
  | whole (text : String)
  | torn (surrogate : Nat)
deriving DecidableEq

instance : Coe String Content := ⟨.whole⟩

inductive Value where
  | null
  | truth (value : Bool)
  | number (numeral : Numeral)
  | text (content : Content)
  | list (items : List Value)
  | object (members : List (Content × Value))

/-- The terminal symbols: structural characters, literal names, numbers and strings. -/
inductive Mark where
  | opening (bracket : Bracket)
  | closing (bracket : Bracket)
  | colon
  | comma
  | null
  | truth (value : Bool)
  | number (numeral : Numeral)
  | text (content : Content)

def commaSeparated : List (List Mark) → List Mark
  | [] => []
  | first :: rest => first ++ rest.flatMap (.comma :: ·)

mutual
def Value.marks : Value → List Mark
  | .null => [.null]
  | .truth value => [.truth value]
  | .number numeral => [.number numeral]
  | .text content => [.text content]
  | .list items => .opening .list :: (commaSeparated (itemMarks items) ++ [.closing .list])
  | .object members => .opening .object :: (commaSeparated (memberMarks members) ++ [.closing .object])

def itemMarks : List Value → List (List Mark)
  | [] => []
  | first :: rest => first.marks :: itemMarks rest

def memberMarks : List (Content × Value) → List (List Mark)
  | [] => []
  | (name, value) :: rest => (.text name :: .colon :: value.marks) :: memberMarks rest
end

/-- The characters behind a backslash that stand for a single character, and for which. -/
def shortEscapes : List (Char × Char) :=
  [('"', '"'), ('\\', '\\'), ('/', '/'), ('b', '\x08'), ('f', '\x0c'), ('n', '\n'), ('r', '\r'),
    ('t', '\t')]

def HexDigit (value : Nat) (digit : Char) : Prop :=
  "0123456789abcdef".toList[value]? = some digit ∨ "0123456789ABCDEF".toList[value]? = some digit

/-- A code unit of UTF-16 in four hexadecimal digits. -/
inductive CodeUnit (unit : Nat) : List Char → Prop where
  | digits {first second third fourth} (high : HexDigit (unit / 0x1000) first)
      (upper : HexDigit (unit / 0x100 % 0x10) second) (lower : HexDigit (unit / 0x10 % 0x10) third)
      (low : HexDigit (unit % 0x10) fourth) : CodeUnit unit [first, second, third, fourth]

/-- The ways to write one character within quotes. -/
inductive WrittenChar (char : Char) : List Char → Prop where
  | raw (noControl : ' ' ≤ char) (noQuote : char ≠ '"') (noBackslash : char ≠ '\\') :
      WrittenChar char [char]
  | short {letter} (listed : (letter, char) ∈ shortEscapes) : WrittenChar char ['\\', letter]
  | unit {digits} (spelled : CodeUnit char.toNat digits) : WrittenChar char ('\\' :: 'u' :: digits)
  /-- A surrogate pair, for a character beyond the first plane. -/
  | pair {high low} (beyond : 0x10000 ≤ char.toNat)
      (first : CodeUnit (0xD800 + (char.toNat - 0x10000) / 0x400) high)
      (second : CodeUnit (0xDC00 + (char.toNat - 0x10000) % 0x400) low) :
      WrittenChar char ('\\' :: 'u' :: (high ++ '\\' :: 'u' :: low))

inductive WrittenChars : List Char → List Char → Prop where
  | nil : WrittenChars [] []
  | cons {char piece content text} (first : WrittenChar char piece) (rest : WrittenChars content text) :
      WrittenChars (char :: content) (piece ++ text)

/-- Whatever may stand within quotes: characters, and code units that need not belong to any. -/
inductive Quotable : List Char → Prop where
  | nil : Quotable []
  | char {char piece text} (first : WrittenChar char piece) (rest : Quotable text) :
      Quotable (piece ++ text)
  | unit {unit digits text} (first : CodeUnit unit digits) (rest : Quotable text) :
      Quotable ('\\' :: 'u' :: (digits ++ text))

/-- The text begins with the second half of a surrogate pair. -/
def BeginsLow (text : List Char) : Prop :=
  ∃ unit digits rest, 0xDC00 ≤ unit ∧ unit < 0xE000 ∧ CodeUnit unit digits ∧
    text = '\\' :: 'u' :: (digits ++ rest)

inductive Content.WrittenAs : Content → List Char → Prop where
  | whole {content text} (written : WrittenChars content.toList text) : WrittenAs (.whole content) text
  /-- Characters up to a surrogate that is the second half of no pair and the first half of none. -/
  | torn {front before unit digits behind} (written : WrittenChars front before)
      (surrogate : 0xD800 ≤ unit ∧ unit < 0xE000) (spelled : CodeUnit unit digits)
      (rest : Quotable behind) (alone : unit < 0xDC00 → ¬BeginsLow behind) :
      WrittenAs (.torn unit) (before ++ '\\' :: 'u' :: (digits ++ behind))

theorem WrittenChars.plain {content : List Char}
    (plain : content.all (fun char => ' ' ≤ char ∧ char ≠ '"' ∧ char ≠ '\\') = true) :
    WrittenChars content content := by
  induction content with
  | nil => exact .nil
  | cons char rest ih =>
    rw [List.all_cons, Bool.and_eq_true, decide_eq_true_eq] at plain
    obtain ⟨⟨noControl, noQuote, noBackslash⟩, plain⟩ := plain
    exact .cons (.raw noControl noQuote noBackslash) (ih plain)

def Bracket.opener : Bracket → Char
  | .object => '{'
  | .list => '['

def Bracket.closer : Bracket → Char
  | .object => '}'
  | .list => ']'

inductive Spelled : Mark → List Char → Prop where
  | opening (bracket : Bracket) : Spelled (.opening bracket) [bracket.opener]
  | closing (bracket : Bracket) : Spelled (.closing bracket) [bracket.closer]
  | colon : Spelled .colon [':']
  | comma : Spelled .comma [',']
  | null : Spelled .null "null".toList
  | truth (value : Bool) : Spelled (.truth value) (if value then "true" else "false").toList
  | number {numeral letter} (standard : numeral.IsStandard) (exponential : letter = 'e' ∨ letter = 'E') :
      Spelled (.number numeral) (numeral.text letter)
  | text {content text} (written : Content.WrittenAs content text) :
      Spelled (.text content) ('"' :: (text ++ ['"']))

def IsSpace (white : List Char) : Prop := ∀ char ∈ white, char ∈ [' ', '\t', '\n', '\r']

/-- A text that spells the marks, with white space wherever it may stand. -/
inductive Layout : List Mark → List Char → Prop where
  | nil {white} (space : IsSpace white) : Layout [] white
  | cons {mark marks white piece text} (space : IsSpace white) (spelled : Spelled mark piece)
      (rest : Layout marks text) : Layout (mark :: marks) (white ++ (piece ++ text))

theorem Layout.tight {mark : Mark} {marks : List Mark} {piece text : List Char}
    (spelled : Spelled mark piece) (rest : Layout marks text) : Layout (mark :: marks) (piece ++ text) :=
  @Layout.cons mark marks [] piece text (fun _ member => nomatch member) spelled rest

/-- The name of a member, written as it is. -/
theorem Layout.name {marks : List Mark} {text : List Char} (content : String)
    (plain : content.toList.all (fun char => ' ' ≤ char ∧ char ≠ '"' ∧ char ≠ '\\') = true)
    (rest : Layout marks text) :
    Layout (.text content :: .colon :: marks) (('"' :: (content.toList ++ ['"'])) ++ ([':'] ++ text)) :=
  .tight (.text (.whole (.plain plain))) (.tight .colon rest)

def Value.WrittenAs (value : Value) (text : String) : Prop := Layout value.marks text.toList

end Json
end PracticeGrammar
