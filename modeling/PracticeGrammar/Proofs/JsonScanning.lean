import PracticeGrammar.Json.Lexemes
import PracticeGrammar.Proofs.JsonNumerals
import PracticeGrammar.Proofs.JsonStrings

/-! JSON texts as their lexemes. Scanning a text that spells a sequence of marks gives the tokens of
these marks, wherever white space stands, up to the first mark that is at fault: an integer beyond
128 bits or a surrogate that is not one of a pair. Only a numeral could take up what follows it, and no
value has two numerals next to each other. -/

namespace PracticeGrammar.Json
open Scanned Numeral

/-- The string that is quoted, if it is one. -/
def Content.text : Content → String
  | .whole text => text
  | .torn _ => ""

def Content.fault? : Content → Option Fault
  | .whole _ => none
  | .torn surrogate => some (if surrogate < 0xDC00 then .loneHighSurrogate else .loneLowSurrogate)

@[simp]
theorem Content.fault?_whole (text : String) : (Content.whole text).fault? = none := rfl

namespace Mark

/-- What the mark is read as, unless it is at fault. -/
def token : Mark → Token
  | .opening bracket => .opening bracket
  | .closing bracket => .closing bracket
  | .colon => .colon
  | .comma => .comma
  | .null => .scalar .null
  | .truth value => .scalar (.bool value)
  | .number numeral => .scalar (.number (.ofNumeral numeral))
  | .text content => .scalar (.string content.text)

def isNumber : Mark → Bool
  | .number _ => true
  | _ => false

/-- The fault for which no token can be read in the place of the mark. -/
def fault? : Mark → Option Fault
  | .number numeral => if numeral.InRange then none else some (.numberOutOfRange numeral.toBinary64)
  | .text content => content.fault?
  | _ => none

/-- Only integers beyond 128 bits and halves of surrogate pairs are at fault. -/
theorem fault?_eq_some {mark : Mark} {fault : Fault} (refused : mark.fault? = some fault) :
    (∃ numeral, mark = .number numeral ∧ ¬numeral.InRange ∧
        fault = .numberOutOfRange numeral.toBinary64) ∨
      ∃ surrogate, mark = .text (.torn surrogate) ∧
        fault = if surrogate < 0xDC00 then .loneHighSurrogate else .loneLowSurrogate := by
  cases mark with
  | opening _ | closing _ | colon | comma | null | truth _ => cases refused
  | number numeral =>
    rw [fault?] at refused
    split at refused
    next => cases refused
    next wide =>
      cases refused
      exact .inl ⟨numeral, rfl, wide, rfl⟩
  | text content =>
    cases content with
    | whole _ => cases refused
    | torn surrogate =>
      cases refused
      exact .inr ⟨surrogate, rfl, rfl⟩

def Apart (left right : Mark) : Prop := left.isNumber = false ∨ right.isNumber = false

end Mark

section Faults

def faultsIn (marks : List Mark) : List Fault := marks.filterMap Mark.fault?

@[simp]
theorem faultsIn_nil : faultsIn [] = [] := rfl

@[simp]
theorem faultsIn_cons (mark : Mark) (marks : List Mark) :
    faultsIn (mark :: marks) = mark.fault?.toList ++ faultsIn marks := by
  cases found : mark.fault? with
  | none => simp [faultsIn, found]
  | some fault => simp [faultsIn, found]

@[simp]
theorem faultsIn_append (front back : List Mark) : faultsIn (front ++ back) = faultsIn front ++ faultsIn back :=
  List.filterMap_append

theorem faultsIn_eq_nil_iff {marks : List Mark} : faultsIn marks = [] ↔ ∀ mark ∈ marks, mark.fault? = none :=
  List.filterMap_eq_nil_iff

@[simp]
theorem faultsIn_commaSeparated (pieces : List (List Mark)) :
    faultsIn (commaSeparated pieces) = pieces.flatMap faultsIn := by
  have more (pieces : List (List Mark)) :
      faultsIn (pieces.flatMap (.comma :: ·)) = pieces.flatMap faultsIn := by
    induction pieces with
    | nil => rfl
    | cons piece pieces ih => simp [ih, Mark.fault?]
  cases pieces with
  | nil => rfl
  | cons first rest => rw [commaSeparated, faultsIn_append, more, List.flatMap_cons]

end Faults

theorem isBlank_iff {char : Char} : isBlank char = true ↔ char ∈ [' ', '\t', '\n', '\r'] := by
  simp [isBlank, or_assoc]

private def initials : List Char := ['{', '}', '[', ']', ':', ',', 'n', 't', 'f', '"']

/-- White space and the first characters of other marks belong to no numeral. -/
private theorem no_numeral_of_mem {char : Char} (listed : char ∈ [' ', '\t', '\n', '\r'] ++ initials) :
    char.isDigit = false ∧ char ≠ '.' ∧ char ≠ 'e' ∧ char ≠ 'E' := by
  have table : ∀ char ∈ [' ', '\t', '\n', '\r'] ++ initials,
      char.isDigit = false ∧ char ≠ '.' ∧ char ≠ 'e' ∧ char ≠ 'E' := by simp [initials]
  exact table char listed

private theorem not_mem_of_isDigit {char : Char} (digit : char.isDigit = true) :
    char ∉ [' ', '\t', '\n', '\r'] ++ initials := by
  intro listed
  rw [(no_numeral_of_mem listed).1] at digit
  cases digit

section Token
variable {mark : Mark} {piece tail : List Char}

private theorem isBlank_of_isDigit {first : Char} (digit : first.isDigit = true) :
    isBlank first = false := by
  have noBlank : ¬isBlank first = true := by
    intro blank
    exact not_mem_of_isDigit digit (List.mem_append_left _ (isBlank_iff.mp blank))
  exact Bool.eq_false_iff.mpr noBlank

private theorem token_digit {first : Char} (digit : first.isDigit = true) (start : Nat)
    (rest : List Char) : token start first rest = number none (first :: rest) start := by
  have noMinus : first ≠ '-' := by
    rintro rfl
    cases digit
  have noInitial : first ∉ initials := by
    intro listed
    exact not_mem_of_isDigit digit (List.mem_append_right _ listed)
  simp only [initials, List.mem_cons, List.not_mem_nil, or_false, not_or] at noInitial
  unfold token
  split <;> simp_all

/-- All of a numeral, and no more, is taken for one number, which may still be out of range. -/
private theorem token_numeral {numeral : Numeral} {letter : Char} (standard : numeral.IsStandard)
    (exponential : letter = 'e' ∨ letter = 'E') (ends : EndsBefore tail) :
    ∃ first rest unsigned, numeral.text letter = first :: rest ∧ isBlank first = false ∧
      Numeral.take numeral.sign unsigned = (numeral, tail) ∧
        ∀ start, token start first (rest ++ tail) = number numeral.sign unsigned start := by
  unfold Numeral.text
  generalize written : numeral.whole ++ (fractionText numeral.fraction ++
    exponentText letter numeral.exponent) = unsigned
  have taken : Numeral.take numeral.sign (unsigned ++ tail) = (numeral, tail) := by
    have taken := take_text standard exponential ends
    rwa [← List.append_assoc, ← List.append_assoc, List.append_assoc numeral.whole, written] at taken
  cases sign : numeral.sign with
  | some sign' =>
    cases sign' with
    | plus => exact absurd sign standard.unsigned
    | minus =>
      rw [sign] at taken
      exact ⟨'-', unsigned, _, rfl, rfl, taken, fun _ => rfl⟩
  | none =>
    rw [sign] at taken
    cases whole : numeral.whole with
    | nil => exact absurd whole (whole_ne_nil standard)
    | cons first digits =>
      have digit := standard.wholeDigits first (whole ▸ List.mem_cons_self)
      rw [whole, List.cons_append] at written
      subst written
      exact ⟨first, _, _, rfl, isBlank_of_isDigit digit, taken, fun start => token_digit digit start _⟩

private theorem token_number {numeral : Numeral} {letter : Char} (standard : numeral.IsStandard)
    (exponential : letter = 'e' ∨ letter = 'E') (inRange : numeral.InRange) (ends : EndsBefore tail) :
    ∃ first rest, numeral.text letter = first :: rest ∧ isBlank first = false ∧ ∀ start, ∃ stop,
      token start first (rest ++ tail) = .ok ⟨.scalar (.number (.ofNumeral numeral)), tail, stop⟩ := by
  obtain ⟨first, rest, _, written, noBlank, taken, read⟩ := token_numeral standard exponential ends
  simp only [number, taken, numberOf_eq standard inRange] at read
  exact ⟨first, rest, written, noBlank, fun start => ⟨_, read start⟩⟩

/-- Where an integer of more than 128 bits stands, no token can be read. -/
private theorem token_wide {numeral : Numeral} {letter : Char} (standard : numeral.IsStandard)
    (exponential : letter = 'e' ∨ letter = 'E') (wide : ¬numeral.InRange) (ends : EndsBefore tail) :
    ∃ first rest, numeral.text letter = first :: rest ∧ isBlank first = false ∧ ∀ start,
      token start first (rest ++ tail) = .error ⟨.numberOutOfRange numeral.toBinary64, start⟩ := by
  obtain ⟨first, rest, _, written, noBlank, taken, read⟩ := token_numeral standard exponential ends
  simp only [number, taken, numberOf_wide standard wide] at read
  exact ⟨first, rest, written, noBlank, read⟩

/-- A mark is read as its token, if it is a number only where the number ends. -/
theorem token_spelled (spelled : Spelled mark piece) (readable : mark.fault? = none)
    (ends : mark.isNumber = true → EndsBefore tail) :
    ∃ first rest, piece = first :: rest ∧ isBlank first = false ∧ ∀ start, ∃ stop,
      token start first (rest ++ tail) = .ok ⟨mark.token, tail, stop⟩ := by
  cases spelled with
  | opening bracket => cases bracket <;> exact ⟨_, [], rfl, rfl, fun start => ⟨_, rfl⟩⟩
  | closing bracket => cases bracket <;> exact ⟨_, [], rfl, rfl, fun start => ⟨_, rfl⟩⟩
  | colon => exact ⟨_, [], rfl, rfl, fun start => ⟨_, rfl⟩⟩
  | comma => exact ⟨_, [], rfl, rfl, fun start => ⟨_, rfl⟩⟩
  | null => exact ⟨'n', "ull".toList, rfl, rfl, fun start => ⟨_, rfl⟩⟩
  | truth value =>
    cases value with
    | true => exact ⟨'t', "rue".toList, rfl, rfl, fun start => ⟨_, rfl⟩⟩
    | false => exact ⟨'f', "alse".toList, rfl, rfl, fun start => ⟨_, rfl⟩⟩
  | @number numeral letter standard exponential =>
    have inRange : numeral.InRange := by simpa [Mark.fault?] using readable
    exact token_number standard exponential inRange (ends rfl)
  | text written =>
    refine ⟨'"', _, rfl, rfl, fun start => ?_⟩
    cases written with
    | torn _ _ _ _ _ => cases readable
    | @whole content text written =>
      obtain ⟨stop, read⟩ := @string_written start (start + 1) [] tail true _ _ written
      refine ⟨stop, ?_⟩
      rw [List.append_assoc, List.singleton_append, token, read]
      simp [Mark.token, Content.text]

/-- Where a mark is at fault, no token can be read. -/
theorem token_refused {fault : Fault} (spelled : Spelled mark piece) (refused : mark.fault? = some fault)
    (ends : mark.isNumber = true → EndsBefore tail) :
    ∃ first rest, piece = first :: rest ∧ isBlank first = false ∧ ∀ start, ∃ place,
      token start first (rest ++ tail) = .error ⟨fault, place⟩ := by
  rcases Mark.fault?_eq_some refused with ⟨numeral, rfl, wide, rfl⟩ | ⟨surrogate, rfl, rfl⟩
  · cases spelled with
    | number standard exponential =>
      obtain ⟨first, rest, written, noBlank, read⟩ := token_wide standard exponential wide (ends rfl)
      exact ⟨first, rest, written, noBlank, fun start => ⟨start, read start⟩⟩
  · cases spelled with
    | text torn =>
      refine ⟨'"', _, rfl, rfl, fun start => ?_⟩
      obtain ⟨place, read⟩ := @string_torn start (start + 1) [] tail true _ _ torn
      refine ⟨place, ?_⟩
      rw [List.append_assoc, List.singleton_append, token, read]

end Token

private theorem initial_of_spelled {mark : Mark} {piece : List Char} (spelled : Spelled mark piece)
    (symbol : mark.isNumber = false) : ∃ first rest, piece = first :: rest ∧ first ∈ initials := by
  cases spelled with
  | opening bracket | closing bracket => cases bracket <;> exact ⟨_, _, rfl, by decide⟩
  | truth value => cases value <;> exact ⟨_, _, rfl, by decide⟩
  | colon | comma | null | text _ => exact ⟨_, _, rfl, by decide⟩
  | number _ _ => cases symbol

private theorem endsBefore_of_mem {first : Char} {rest : List Char}
    (listed : first ∈ [' ', '\t', '\n', '\r'] ++ initials) : EndsBefore (first :: rest) := by
  intro char same
  cases same
  exact no_numeral_of_mem listed

/-- Where no number comes next, the text goes on with white space or another mark. -/
theorem endsBefore_of_layout {marks : List Mark} {text : List Char} (layout : Layout marks text)
    (symbol : ∀ mark ∈ marks.head?, mark.isNumber = false) : EndsBefore text := by
  cases layout with
  | nil space =>
    cases text with
    | nil =>
      intro char none
      cases none
    | cons first rest =>
      exact endsBefore_of_mem (List.mem_append_left _ (space first List.mem_cons_self))
  | @cons mark marks white piece text space spelled rest =>
    cases white with
    | cons first more =>
      exact endsBefore_of_mem (List.mem_append_left _ (space first List.mem_cons_self))
    | nil =>
      obtain ⟨first, more, rfl, listed⟩ := initial_of_spelled spelled (symbol mark rfl)
      exact endsBefore_of_mem (List.mem_append_right _ listed)

private theorem endsBefore_of_number {mark : Mark} {marks : List Mark} {text : List Char}
    (layout : Layout marks text) (apart : ∀ next ∈ marks.head?, mark.Apart next)
    (number : mark.isNumber = true) : EndsBefore text := by
  apply endsBefore_of_layout layout
  intro follower first
  exact (apart follower first).resolve_left (by simp [number])

namespace Lexemes

private theorem blanks_split {white text : List Char} (space : IsSpace white)
    (next : ∀ char ∈ text.head?, isBlank char = false) :
    (white ++ text).dropWhile isBlank = text := by
  rw [List.dropWhile_append_of_pos fun char member => isBlank_iff.mpr (space char member)]
  cases text with
  | nil => rfl
  | cons first rest =>
    have stop := next first rfl
    simp [stop]

private theorem blanks_split_cons {white : List Char} (space : IsSpace white) {first : Char}
    (noBlank : isBlank first = false) (more text : List Char) :
    (white ++ (first :: more ++ text)).dropWhile isBlank = first :: (more ++ text) := by
  apply blanks_split space
  intro char same
  cases same
  exact noBlank

section Next
variable {text rest : List Char} {first : Char} {offset : Nat} (found : List Lexeme)

theorem scanFrom_blank (blank : text.dropWhile isBlank = []) (offset : Nat) :
    scanFrom text offset found =
      ⟨found.reverse, .finished (offset + (text.takeWhile isBlank).length)⟩ := by
  unfold scanFrom
  split
  · rfl
  next body => rw [blank] at body; cases body

theorem scanFrom_flaw {flaw : Flaw} (body : text.dropWhile isBlank = first :: rest)
    (broken : token (offset + (text.takeWhile isBlank).length) first rest = .error flaw) :
    scanFrom text offset found = ⟨found.reverse, .broken flaw⟩ := by
  rw [scanFrom]
  split
  next none => rw [body] at none; cases none
  next same =>
    rw [body] at same
    cases same
    split
    next other => rw [broken] at other; cases other; rfl
    next taken => rw [broken] at taken; cases taken

theorem scanFrom_scanned {scanned : Scanned Token} (body : text.dropWhile isBlank = first :: rest)
    (read : token (offset + (text.takeWhile isBlank).length) first rest = .ok scanned) :
    scanFrom text offset found = scanFrom scanned.rest scanned.stop
      (⟨scanned.value, offset + (text.takeWhile isBlank).length, scanned.stop⟩ :: found) := by
  rw [scanFrom]
  split
  next none => rw [body] at none; cases none
  next same =>
    rw [body] at same
    cases same
    split
    next broken => rw [read] at broken; cases broken
    next taken => rw [read] at taken; cases taken; rfl

end Next

theorem scanFrom_token {text rest tail : List Char} {first : Char} {value : Token}
    (body : text.dropWhile isBlank = first :: rest)
    (read : ∀ start, ∃ stop, token start first rest = .ok ⟨value, tail, stop⟩) (offset : Nat)
    (found : List Lexeme) : ∃ start stop,
      scanFrom text offset found = scanFrom tail stop (⟨value, start, stop⟩ :: found) := by
  obtain ⟨stop, scanned⟩ := read (offset + (text.takeWhile isBlank).length)
  exact ⟨_, stop, scanFrom_scanned found body scanned⟩

/-- Scanning goes mark by mark: behind some of them it goes on with what spells the others. -/
theorem scanFrom_append {front back : List Mark} {text : List Char} (layout : Layout (front ++ back) text)
    (apart : (front ++ back).IsChain Mark.Apart) (readable : ∀ mark ∈ front, mark.fault? = none)
    (offset : Nat) (found : List Lexeme) : ∃ (items : List Lexeme) (rest : List Char) (stop : Nat),
      Layout back rest ∧ scanFrom text offset found = scanFrom rest stop (items.reverse ++ found) ∧
      items.map Lexeme.token = front.map Mark.token := by
  induction front generalizing text offset found with
  | nil => exact ⟨[], text, offset, layout, rfl, rfl⟩
  | cons mark front ih =>
    rw [List.cons_append] at layout apart
    cases layout with
    | @cons _ _ white piece text space spelled rest =>
      obtain ⟨next, apart⟩ := List.isChain_cons.mp apart
      have ends := endsBefore_of_number rest next
      obtain ⟨first, more, rfl, noBlank, read⟩ :=
        token_spelled spelled (readable mark List.mem_cons_self) ends
      have body := blanks_split_cons space noBlank more text
      obtain ⟨start, stop, scanned⟩ := scanFrom_token body read offset found
      obtain ⟨items, remaining, finish, spelledRest, continued, tokens⟩ := ih rest apart
        (fun mark member => readable mark (List.mem_cons_of_mem _ member)) stop
        (⟨mark.token, start, stop⟩ :: found)
      refine ⟨⟨mark.token, start, stop⟩ :: items, remaining, finish, spelledRest, ?_, ?_⟩
      · rw [scanned, continued, List.reverse_cons, List.append_assoc, List.singleton_append]
      · rw [List.map_cons, List.map_cons, tokens]

theorem scanFrom_layout {marks : List Mark} {text : List Char} (layout : Layout marks text)
    (apart : marks.IsChain Mark.Apart) (readable : ∀ mark ∈ marks, mark.fault? = none) (offset : Nat)
    (found : List Lexeme) : ∃ items stop,
      scanFrom text offset found = ⟨found.reverse ++ items, .finished stop⟩ ∧
        items.map Lexeme.token = marks.map Mark.token := by
  rw [← List.append_nil marks] at layout apart
  obtain ⟨items, rest, stop, empty, scanned, tokens⟩ := scanFrom_append layout apart readable offset found
  cases empty with
  | nil space =>
    have blank := @blanks_split rest [] space (by simp)
    rw [List.append_nil] at blank
    have ended := scanFrom_blank (items.reverse ++ found) blank stop
    refine ⟨items, stop + (rest.takeWhile isBlank).length, ?_, tokens⟩
    rw [scanned, ended, List.reverse_append, List.reverse_reverse]

/-- Scanning ends at a mark that is at fault. -/
theorem scanFrom_refused {mark : Mark} {marks : List Mark} {text : List Char} {fault : Fault}
    (layout : Layout (mark :: marks) text) (apart : (mark :: marks).IsChain Mark.Apart)
    (refused : mark.fault? = some fault) (offset : Nat) (found : List Lexeme) :
    ∃ place, scanFrom text offset found = ⟨found.reverse, .broken ⟨fault, place⟩⟩ := by
  cases layout with
  | @cons _ _ white piece text space spelled rest =>
    have ends := endsBefore_of_number rest (List.isChain_cons.mp apart).1
    obtain ⟨first, more, rfl, noBlank, read⟩ := token_refused spelled refused ends
    have body := blanks_split_cons space noBlank more text
    obtain ⟨place, broken⟩ := read (offset +
      ((white ++ (first :: more ++ text)).takeWhile isBlank).length)
    exact ⟨place, scanFrom_flaw found body broken⟩

/-- What was found before stands in front of what is still found. -/
theorem scanFrom_found (text : List Char) (offset : Nat) (found : List Lexeme) :
    ∃ items ending, scanFrom text offset found = ⟨found.reverse ++ items, ending⟩ := by
  fun_induction scanFrom text offset found with
  | case1 => exact ⟨[], _, by rw [List.append_nil]⟩
  | case2 => exact ⟨[], _, by rw [List.append_nil]⟩
  | case3 text offset found start first rest _ scanned _ _ ih =>
    obtain ⟨items, ending, more⟩ := ih
    refine ⟨⟨scanned.value, start, scanned.stop⟩ :: items, ending, ?_⟩
    rw [more, List.reverse_cons, List.append_assoc, List.singleton_append]

end Lexemes

section Apart
variable {mark : Mark} {marks rest : List Mark}

private theorem chain_cons (symbol : mark.isNumber = false) (apart : marks.IsChain Mark.Apart) :
    (mark :: marks).IsChain Mark.Apart :=
  List.isChain_cons.mpr ⟨fun _ _ => .inl symbol, apart⟩

private theorem chain_append_cons (first : marks.IsChain Mark.Apart) (symbol : mark.isNumber = false)
    (second : (mark :: rest).IsChain Mark.Apart) : (marks ++ mark :: rest).IsChain Mark.Apart := by
  refine List.isChain_append.mpr ⟨first, second, fun _ _ next same => ?_⟩
  cases same
  exact .inr symbol

private theorem chain_commaSeparated {pieces : List (List Mark)} (symbol : mark.isNumber = false)
    (each : ∀ piece ∈ pieces, piece.IsChain Mark.Apart) :
    (commaSeparated pieces ++ [mark]).IsChain Mark.Apart := by
  have more (pieces : List (List Mark)) (each : ∀ piece ∈ pieces, piece.IsChain Mark.Apart) :
      ∃ first marks, first.isNumber = false ∧
        pieces.flatMap (.comma :: ·) ++ [mark] = first :: marks ∧ (first :: marks).IsChain Mark.Apart := by
    induction pieces with
    | nil => exact ⟨mark, [], symbol, rfl, List.isChain_singleton _⟩
    | cons piece pieces ih =>
      obtain ⟨first, marks, symbol, same, apart⟩ := ih fun piece member =>
        each piece (List.mem_cons_of_mem _ member)
      refine ⟨.comma, piece ++ first :: marks, rfl, ?_, ?_⟩
      · rw [List.flatMap_cons, List.append_assoc, same, List.cons_append]
      · exact chain_cons rfl (chain_append_cons (each piece List.mem_cons_self) symbol apart)
  cases pieces with
  | nil => exact List.isChain_singleton _
  | cons piece pieces =>
    obtain ⟨first, marks, symbol, same, apart⟩ := more pieces fun piece member =>
      each piece (List.mem_cons_of_mem _ member)
    rw [commaSeparated, List.append_assoc, same]
    exact chain_append_cons (each piece List.mem_cons_self) symbol apart

end Apart

mutual
/-- No value has two numbers next to each other. -/
theorem Value.marks_apart (value : Value) : value.marks.IsChain Mark.Apart :=
  match value with
  | .null | .truth _ | .number _ | .text _ => List.isChain_singleton _
  | .list items => chain_cons rfl (chain_commaSeparated rfl (itemMarks_apart items))
  | .object members => chain_cons rfl (chain_commaSeparated rfl (memberMarks_apart members))
termination_by structural value

theorem itemMarks_apart (items : List Value) : ∀ piece ∈ itemMarks items, piece.IsChain Mark.Apart :=
  match items with
  | [] => fun _ member => nomatch member
  | first :: rest => fun piece member => by
    rcases List.mem_cons.mp member with rfl | member
    · exact first.marks_apart
    · exact itemMarks_apart rest piece member
termination_by structural items

theorem memberMarks_apart (members : List (Content × Value)) :
    ∀ piece ∈ memberMarks members, piece.IsChain Mark.Apart :=
  match members with
  | [] => fun _ member => nomatch member
  | (name, value) :: rest => fun piece member => by
    rcases List.mem_cons.mp member with rfl | member
    · exact chain_cons rfl (chain_cons rfl value.marks_apart)
    · exact memberMarks_apart rest piece member
termination_by structural members
end

theorem itemMarks_eq_map (items : List Value) : itemMarks items = items.map Value.marks := by
  induction items with
  | nil => rfl
  | cons first rest ih => rw [itemMarks, ih, List.map_cons]

theorem memberMarks_eq_map (members : List (Content × Value)) :
    memberMarks members = members.map fun member => .text member.1 :: .colon :: member.2.marks := by
  induction members with
  | nil => rfl
  | cons first rest ih => rw [memberMarks, ih, List.map_cons]

namespace Value

def faults (value : Value) : List Fault := faultsIn value.marks

theorem faults_itemMarks (items : List Value) :
    (itemMarks items).flatMap faultsIn = items.flatMap faults := by
  rw [itemMarks_eq_map, List.flatMap_map]
  rfl

theorem faults_memberMarks (members : List (Content × Value)) : (memberMarks members).flatMap faultsIn =
    members.flatMap fun member => member.1.fault?.toList ++ member.2.faults := by
  simp [memberMarks_eq_map, List.flatMap_map, Mark.fault?, faults]

@[simp]
theorem faults_list (items : List Value) : (list items).faults = items.flatMap faults := by
  rw [← faults_itemMarks]
  simp [faults, marks, Mark.fault?]

@[simp]
theorem faults_object (members : List (Content × Value)) : (object members).faults =
    members.flatMap fun member => member.1.fault?.toList ++ member.2.faults := by
  rw [← faults_memberMarks]
  simp [faults, marks, Mark.fault?]

@[simp]
theorem faults_number (numeral : Numeral) :
    (number numeral).faults = (Mark.number numeral).fault?.toList := by
  rw [faults, marks, faultsIn_cons, faultsIn_nil, List.append_nil]

@[simp]
theorem faults_text (content : Content) : (text content).faults = content.fault?.toList := by
  rw [faults, marks, faultsIn_cons, faultsIn_nil, List.append_nil, Mark.fault?]

@[simp]
theorem faults_truth (value : Bool) : (truth value).faults = [] := rfl

end Value

/-- Whatever text writes a value, its tokens are those of the value. -/
theorem Lexemes.ofText_written {value : Value} {text : String} (written : value.WrittenAs text)
    (readable : value.faults = []) : ∃ items stop,
      ofText text.toList = ⟨items, .finished stop⟩ ∧
        items.map Lexeme.token = value.marks.map Mark.token :=
  scanFrom_layout written value.marks_apart (faultsIn_eq_nil_iff.mp readable) 0 []

end PracticeGrammar.Json
