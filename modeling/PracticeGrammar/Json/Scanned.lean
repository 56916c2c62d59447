import PracticeGrammar.Json.Escape
import PracticeGrammar.Json.Token
import PracticeGrammar.Numeral

/-! Single tokens at the head of a text. Scanning is lenient: a keyword or a number may touch what
follows it, raw control characters may stand in strings, and numbers may lack digits on one side of
the point. A text that ends inside a string closes it if its very last character is a quote, be it
escaped or the opening one. Every token is shown to leave a shorter text. -/

namespace PracticeGrammar.Json

/-- A fault and the octet at which it lies. -/
structure Flaw where
  fault : Fault
  offset : Nat
deriving DecidableEq

/-- A piece read from the head of a text, the text behind it, and the octet where that begins. -/
structure Scanned (α : Type) where
  value : α
  rest : List Char
  stop : Nat

namespace Scanned

def isBlank (char : Char) : Bool := char == ' ' || char == '\t' || char == '\n' || char == '\r'

/-- The length of a text in octets. -/
def octets : List Char → Nat
  | [] => 0
  | char :: rest => char.utf8Size + octets rest

/-- The first octet of a character. -/
def leadOctet (char : Char) : Nat := ((String.utf8EncodeChar char).head?.getD 0).toNat

/-- A character that begins no token, reported as the character with its first octet's number. -/
def stray (char : Char) (start : Nat) : Flaw := ⟨.strayChar (Char.ofNat (leadOctet char)), start⟩

/-- A string from behind its opening quote. The characters read so far are given last one first,
and `endsInQuote` says whether the text read so far ends in a quote. -/
def string (start : Nat) (text : List Char) (offset : Nat) (found : List Char) (endsInQuote : Bool) :
    Except Flaw (Scanned Token) :=
  match text with
  | [] =>
    if endsInQuote then .ok ⟨.scalar (.string (String.ofList found.reverse)), [], offset⟩
    else .error ⟨.unclosedString, start⟩
  | char :: rest =>
    if char = '"' then .ok ⟨.scalar (.string (String.ofList found.reverse)), rest, offset + 1⟩
    else if char = '\\' then
      match Escape.read rest with
      | .error escape => .error ⟨escape.fault, offset + 1 + escape.distance⟩
      | .ok escape =>
        string start (rest.drop escape.length) (offset + 1 + octets (rest.take escape.length))
          (escape.value :: found) (rest.head? == some '"')
    else string start rest (offset + char.utf8Size) (char :: found) false
termination_by text.length

/-- A keyword from behind its first character. -/
def keyword (first : Char) (tail : String) (scalar : Scalar) (start : Nat) (rest : List Char) :
    Except Flaw (Scanned Token) :=
  if tail.toList.isPrefixOf rest then
    .ok ⟨.scalar scalar, rest.drop tail.length, start + 1 + tail.length⟩
  else .error (stray first start)

/-- The number that a numeral stands for. Integers are limited to 128 bits. -/
def numberOf (numeral : Numeral) : Except Binary64 Number :=
  if numeral.isIntegral then
    let value := Numeral.digitsValue numeral.whole
    if numeral.whole.isEmpty then .error .zero
    else if numeral.isNegative then
      if value ≤ 0x80000000000000000000000000000000 then .ok (.signed (-value))
      else .error numeral.toBinary64
    else if value < 0x100000000000000000000000000000000 then .ok (.unsigned value)
    else .error numeral.toBinary64
  else if numeral.isDecimal then .ok (.float numeral.toBinary64)
  else .error .zero

def number (sign : Option Sign) (text : List Char) (start : Nat) : Except Flaw (Scanned Token) :=
  let (numeral, rest) := Numeral.take sign text
  match numberOf numeral with
  | .error nearest => .error ⟨.numberOutOfRange nearest, start⟩
  | .ok value => .ok ⟨.scalar (.number value), rest, start + numeral.width⟩

/-- The token that begins with a given character. -/
def token (start : Nat) (first : Char) (rest : List Char) : Except Flaw (Scanned Token) :=
  match first with
  | '{' => .ok ⟨.opening .object, rest, start + 1⟩
  | '}' => .ok ⟨.closing .object, rest, start + 1⟩
  | '[' => .ok ⟨.opening .list, rest, start + 1⟩
  | ']' => .ok ⟨.closing .list, rest, start + 1⟩
  | ':' => .ok ⟨.colon, rest, start + 1⟩
  | ',' => .ok ⟨.comma, rest, start + 1⟩
  | '"' => string start rest (start + 1) [] true
  | 't' => keyword 't' "rue" (.bool true) start rest
  | 'f' => keyword 'f' "alse" (.bool false) start rest
  | 'n' => keyword 'n' "ull" .null start rest
  | '-' => number (some .minus) rest start
  | first => if first.isDigit then number none (first :: rest) start else .error (stray first start)

theorem string_shorter {start offset : Nat} {text found : List Char} {endsInQuote : Bool}
    {scanned : Scanned Token} (read : string start text offset found endsInQuote = .ok scanned) :
    scanned.rest.length ≤ text.length := by
  fun_induction string start text offset found endsInQuote with
  | case1 => cases read; simp
  | case2 => cases read
  | case3 => cases read; simp
  | case4 => cases read
  | case5 =>
    rename_i ih
    have shorter := ih read
    simp only [List.length_drop] at shorter
    simp only [List.length_cons]
    omega
  | case6 =>
    rename_i ih
    have shorter := ih read
    simp only [List.length_cons]
    omega

private theorem dropWhile_shorter (p : Char → Bool) (text : List Char) :
    (text.dropWhile p).length ≤ text.length := (List.dropWhile_suffix p).length_le

theorem take_shorter (sign : Option Sign) (text : List Char) :
    (Numeral.take sign text).2.length ≤ (text.dropWhile Char.isDigit).length := by
  have exponent (tail : List Char) : (Numeral.takeExponent tail).2.length ≤ tail.length := by
    unfold Numeral.takeExponent
    split
    · simp
    next letter rest =>
      split
      · have signed : (Numeral.takeSign rest).2.length ≤ rest.length := by
          unfold Numeral.takeSign
          split <;> simp
        have dropped := dropWhile_shorter Char.isDigit (Numeral.takeSign rest).2
        simp only [List.length_cons]
        omega
      · simp
  have fraction (tail : List Char) : (Numeral.takeFraction tail).2.length ≤ tail.length := by
    unfold Numeral.takeFraction
    split
    next rest => have := dropWhile_shorter Char.isDigit rest; simp only [List.length_cons]; omega
    · simp
  exact Nat.le_trans (exponent _) (fraction _)

theorem number_shorter {sign : Option Sign} {text : List Char} {start : Nat} {scanned : Scanned Token}
    (read : number sign text start = .ok scanned) :
    scanned.rest.length ≤ (text.dropWhile Char.isDigit).length := by
  have shorter := take_shorter sign text
  unfold number at read
  split at read
  next numeral rest same =>
    split at read <;> cases read
    rw [same] at shorter
    exact shorter

/-- A token takes at least its first character. -/
theorem token_shorter {start : Nat} {first : Char} {rest : List Char} {scanned : Scanned Token}
    (read : token start first rest = .ok scanned) : scanned.rest.length ≤ rest.length := by
  unfold token at read
  split at read
  all_goals try (cases read; exact Nat.le_refl _)
  · exact string_shorter read
  iterate 3 (unfold keyword at read; split at read <;> cases read; simp)
  · exact Nat.le_trans (number_shorter read) (dropWhile_shorter _ _)
  · split at read
    next digit =>
      have shorter := number_shorter read
      rw [List.dropWhile_cons_of_pos digit] at shorter
      exact Nat.le_trans shorter (dropWhile_shorter _ _)
    · cases read

theorem rest_shorter {text : List Char} {start : Nat} {first : Char} {rest : List Char}
    {scanned : Scanned Token} (body : text.dropWhile isBlank = first :: rest)
    (read : token start first rest = .ok scanned) : scanned.rest.length < text.length := by
  have inside := dropWhile_shorter isBlank text
  have shorter := token_shorter read
  rw [body, List.length_cons] at inside
  omega

end Scanned

end PracticeGrammar.Json
