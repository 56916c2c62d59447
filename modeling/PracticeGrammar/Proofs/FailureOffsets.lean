import PracticeGrammar.Loading
import PracticeGrammar.Proofs.PlainForm
import PracticeGrammar.Proofs.Refusals
import PracticeGrammar.Proofs.TokenPlaces

/-! The offset that reports a failure. No message leaves a control sequence open, so the offset behind
it stays in sight, and it never lies behind the end of the text. -/

namespace PracticeGrammar

namespace Text

/-- A message begins with a character in sight and ends outside all control sequences. -/
structure IsMessage (text : List Char) : Prop where
  begun : text.head?.any (fun char => char != escape && !isBlank char) = true
  closed : Control.outside.after text = .outside

theorem isMessage_clear {text : List Char} (clear : escape ∉ text)
    (begun : text.head?.any (fun char => char != escape && !isBlank char) = true) : IsMessage text :=
  ⟨begun, Control.after_clear clear⟩

section IsMessage
variable {text : List Char} (message : IsMessage text)
include message

private theorem IsMessage.head?_append (back : List Char) :
    (text ++ back).head?.any (fun char => char != escape && !isBlank char) = true := by
  cases text with
  | nil => cases message.begun
  | cons first rest => exact message.begun

theorem IsMessage.clear {back : List Char} (clear : escape ∉ back) : IsMessage (text ++ back) := by
  refine ⟨message.head?_append back, ?_⟩
  rw [Control.after_append, message.closed, Control.after_clear clear]

theorem IsMessage.red (name : List Char) : IsMessage (text ++ Text.red name) := by
  refine ⟨message.head?_append _, ?_⟩
  rw [Control.after_append, message.closed, Control.after_red]

theorem IsMessage.words_ne_nil : words (visible .outside text) ≠ [] := by
  intro none
  cases text with
  | nil => cases message.begun
  | cons first rest =>
    obtain ⟨shown, solid⟩ : first ≠ escape ∧ isBlank first = false := by simpa using message.begun
    have inked : first ∈ ink (visible .outside (first :: rest)) := by
      rw [visible, if_pos ⟨rfl, shown⟩]
      exact mem_ink_iff.mpr ⟨List.mem_cons_self, solid⟩
    rw [← flatten_words, none] at inked
    cases inked

end IsMessage

theorem clear_append {front back : String} (frontClear : escape ∉ front.toList)
    (backClear : escape ∉ back.toList) : escape ∉ (front ++ back).toList := by
  rw [String.toList_append, List.mem_append, not_or]
  exact ⟨frontClear, backClear⟩

theorem IsMessage.append {front back : String} (message : IsMessage front.toList)
    (clear : escape ∉ back.toList) : IsMessage (front ++ back).toList := by
  rw [String.toList_append]
  exact message.clear clear

section Digits
variable {char : Char}

private theorem range_of_isDigit (digit : char.isDigit = true) : 48 ≤ char.toNat ∧ char.toNat ≤ 57 := by
  simpa [Char.isDigit, UInt32.le_iff_toNat_le] using digit

private theorem solid_of_isDigit (digit : char.isDigit = true) : isBlank char = false := by
  have range := range_of_isDigit digit
  simp only [isBlank, Bool.or_eq_false_iff, Bool.and_eq_false_iff, decide_eq_false_iff_not,
    beq_eq_false_iff_ne]
  omega

private theorem isDigit_of_mem_toDigits {number : Nat} (member : char ∈ Nat.toDigits 10 number) :
    char.isDigit = true :=
  Nat.isDigit_of_mem_toDigits (by decide) (by decide) member

theorem clear_toDigits (number : Nat) : escape ∉ Nat.toDigits 10 number := by
  intro member
  cases isDigit_of_mem_toDigits member

theorem toList_toString (number : Nat) : (toString number).toList = Nat.toDigits 10 number := by
  rw [Nat.toString_eq_repr, Nat.toList_repr]

theorem clear_toString (number : Nat) : escape ∉ (toString number).toList := by
  rw [toList_toString]
  exact clear_toDigits number

theorem isWord_toString (number : Nat) : IsWord (toString number).toList := by
  rw [toList_toString]
  exact ⟨Nat.toDigits_ne_nil, fun _ member => solid_of_isDigit (isDigit_of_mem_toDigits member)⟩

end Digits

private theorem words_place (number : Nat) :
    words ("at byte ".toList ++ (toString number).toList) =
      ["at".toList, "byte".toList, (toString number).toList] := by
  have place : "at byte ".toList ++ (toString number).toList =
      "at".toList ++ ' ' :: ("byte".toList ++ ' ' :: (toString number).toList) := rfl
  obtain ⟨something, solid⟩ := isWord_toString number
  rw [place, words_append_blank, words_append_blank, words_solid solid something]
  rfl

/-- An offset behind a message is not touched when both are made plain. -/
theorem plain_located {message : List Char} (isMessage : IsMessage message) (offset : Nat) :
    plain (message ++ (" at byte " ++ toString offset).toList) =
      plain message ++ (" at byte " ++ toString offset).toList := by
  have place : (" at byte " ++ toString offset).toList =
      ' ' :: ("at byte ".toList ++ (toString offset).toList) := by
    rw [String.toList_append]
    rfl
  have clear : escape ∉ ' ' :: ("at byte ".toList ++ (toString offset).toList) := by
    rw [List.mem_cons, List.mem_append, not_or, not_or]
    exact ⟨by decide, by decide, clear_toString offset⟩
  have something : words ("at byte ".toList ++ (toString offset).toList) ≠ [] := by
    rw [words_place]
    exact List.cons_ne_nil _ _
  have same : fold ("at byte ".toList ++ (toString offset).toList) =
      "at byte ".toList ++ (toString offset).toList := by
    rw [fold, words_place, List.intercalate_cons_cons, List.intercalate_cons_cons,
      List.intercalate_singleton]
    rfl
  rw [place, plain, visible_append, isMessage.closed, visible_clear clear,
    fold_append_blank isMessage.words_ne_nil something, same, plain]

end Text

namespace Binary64
open Text

private theorem mem_render {decimal : Decimal} {char : Char} (member : char ∈ decimal.render) :
    char.isDigit = true ∨ char = '.' := by
  have digit (member : char ∈ decimal.digitText) : char.isDigit = true := isDigit_of_mem_toDigits member
  have zero {count : Nat} (member : char ∈ List.replicate count '0') : char.isDigit = true := by
    rw [List.eq_of_mem_replicate member]
    rfl
  simp only [Decimal.render] at member
  split at member
  · rcases List.mem_append.mp member with shown | padded
    · exact .inl (digit shown)
    · exact .inl (zero padded)
  · split at member
    · rcases List.mem_append.mp member with before | behind
      · exact .inl (digit (List.mem_of_mem_take before))
      · rcases List.mem_cons.mp behind with point | behind
        · exact .inr point
        · exact .inl (digit (List.mem_of_mem_drop behind))
    · rcases List.mem_append.mp member with before | shown
      · simp only [List.mem_cons] at before
        rcases before with rfl | point | padded
        · exact .inl rfl
        · exact .inr point
        · exact .inl (zero padded)
      · exact .inl (digit shown)

private theorem render_ne_nil (decimal : Decimal) : decimal.render ≠ [] := by
  have digits : decimal.digitText ≠ [] := Nat.toDigits_ne_nil
  unfold Decimal.render
  dsimp only
  split
  · simp [digits]
  · split <;> simp

/-- What a number is told in besides its digits. -/
def letters : List Char := ['.', '-', 'N', 'a', 'i', 'n', 'f']

theorem mem_text {number : Binary64} {char : Char} (member : char ∈ number.text.toList) :
    char.isDigit = true ∨ char ∈ letters := by
  have unsigned (member : char ∈ number.unsignedText) :
      char.isDigit = true ∨ char ∈ letters := by
    have infinite : ∀ char ∈ ['i', 'n', 'f'], char ∈ letters := by simp [letters]
    unfold unsignedText at member
    split at member
    · exact .inr (infinite char member)
    · split at member
      · cases List.mem_singleton.mp member
        exact .inl rfl
      · exact (mem_render member).imp_right fun point => by simp [letters, point]
  have unknown : ∀ char ∈ "NaN".toList, char ∈ letters := by simp [letters]
  unfold text at member
  split at member
  · exact .inr (unknown char member)
  · split at member
    · rw [String.toList_ofList, List.mem_cons] at member
      rcases member with rfl | member
      · exact .inr (by simp [letters])
      · exact unsigned member
    · rw [String.toList_ofList] at member
      exact unsigned member

theorem clear_text (number : Binary64) : escape ∉ number.text.toList := by
  intro member
  rcases mem_text member with digit | listed
  · cases digit
  · have clear : escape ∉ letters := by decide
    exact clear listed

theorem isWord_text (number : Binary64) : IsWord number.text.toList := by
  constructor
  · have unsigned : number.unsignedText ≠ [] := by
      unfold unsignedText
      split
      · simp
      · split
        · simp
        · exact render_ne_nil _
    unfold text
    split
    · simp
    · split <;> simp [unsigned]
  · intro char member
    rcases mem_text member with digit | listed
    · exact solid_of_isDigit digit
    · have solid : ∀ char ∈ letters, isBlank char = false := by simp [letters, isBlank]
      exact solid char listed

end Binary64

namespace Json.Number
open Text

theorem clear_text (number : Number) : escape ∉ number.text.toList := by
  cases number with
  | float value => exact value.clear_text
  | unsigned value => exact clear_toString value
  | signed value =>
    unfold text
    dsimp only
    split
    · exact clear_append (by decide) (clear_toString _)
    · exact clear_toString _

theorem clear_typeName (number : Number) : escape ∉ number.typeName.toList := by
  unfold typeName
  split
  · decide
  · split <;> decide
  · split <;> decide

end Json.Number

namespace Compiled
open Json Text

namespace Cause

theorem clear_shapeName (shape : Shape) : escape ∉ shape.name.toList := by
  cases shape <;> decide

theorem clear_kindTag (kind : Production.Kind) : escape ∉ kind.tag.toList := by
  cases kind <;> decide

private theorem clear_headText (head : Head) (noString : ∀ name, head ≠ .scalar (.string name)) :
    escape ∉ (headText head).toList := by
  cases head with
  | opening bracket => cases bracket <;> decide
  | scalar value =>
    cases value with
    | null => decide
    | bool value => cases value <;> decide
    | string name => exact absurd rfl (noString name)
    | number value =>
      have type : escape ∉ (value.typeName ++ " ").toList := clear_append value.clear_typeName (by decide)
      exact clear_append (by decide) (clear_append type value.clear_text)

private theorem clear_openingWanted (shape : Shape) (bracket : Bracket) :
    escape ∉ (openingWanted shape bracket).toList := by
  cases bracket <;> unfold openingWanted <;> dsimp only <;> split <;> decide

private theorem isMessage_unexpectedChar (char : Char) {wanted : String} (clear : escape ∉ wanted.toList) :
    IsMessage (unexpectedChar char wanted) := by
  have quote : escape ∉ ("', wanted " ++ wanted).toList := clear_append (by decide) clear
  exact ((isMessage_clear (by decide) (by decide)).red [char]).clear quote

private theorem isMessage_ofShape {front middle back : String} (message : IsMessage front.toList)
    (shape : Shape) (joint : escape ∉ middle.toList) (clear : escape ∉ back.toList) :
    IsMessage (front ++ shape.name ++ middle ++ back).toList :=
  ((message.append (clear_shapeName shape)).append joint).append clear

private theorem isMessage_faultMessage (fault : Fault) : IsMessage (faultMessage fault) := by
  have ending : IsMessage "Unexpected end of file: wanted ".toList :=
    isMessage_clear (by decide) (by decide)
  have encoding : IsMessage "Invalid UTF-8 encoding: ".toList := isMessage_clear (by decide) (by decide)
  have range : IsMessage "Number out of range: ".toList := isMessage_clear (by decide) (by decide)
  cases fault with
  | strayChar char => exact isMessage_unexpectedChar char (by decide)
  | badCodeUnit => exact isMessage_unexpectedChar '?' (by decide)
  | unclosedString | endInEscape | endInCodeUnit => exact ending.append (by decide)
  | splitCodeUnit | loneHighSurrogate | loneLowSurrogate => exact encoding.append (by decide)
  | numberOutOfRange nearest => exact range.append nearest.clear_text

private theorem isMessage_unknownTag (tag : String) : IsMessage (message (.unknownTag tag)) := by
  have kinds : escape ∉ kindList.toList := by decide
  have rest : escape ∉ (" in enum Production. Available variants: [" ++ kindList ++ "]").toList :=
    clear_append (clear_append (by decide) kinds) (by decide)
  exact ((isMessage_clear (by decide) (by decide)).red tag.toList).clear rest

/-- Every message whose quotations are coloured reads to its end. -/
theorem isMessage_message {cause : Cause} (guarded : cause.IsGuarded) : IsMessage cause.message := by
  have failed : IsMessage "Operation failed on shape ".toList := isMessage_clear (by decide) (by decide)
  have wrong : IsMessage "Wrong shape: expected ".toList := isMessage_clear (by decide) (by decide)
  have unsupported : IsMessage "Unsupported type: got ".toList := isMessage_clear (by decide) (by decide)
  have field : IsMessage "Field '".toList := isMessage_clear (by decide) (by decide)
  have unexpected : IsMessage "Unexpected ".toList := isMessage_clear (by decide) (by decide)
  cases cause with
  | lexical fault => exact isMessage_faultMessage fault
  | textEnd => exact isMessage_clear (by decide) (by decide)
  | misplacedColon => exact isMessage_unexpectedChar ':' (by decide)
  | misplacedComma => exact isMessage_unexpectedChar ',' (by decide)
  | misplacedClosing bracket => exact isMessage_unexpectedChar (closingChar bracket) (by decide)
  | unskippable value => exact isMessage_unexpectedChar value.mark (by decide)
  | noFieldName head =>
    have clear : escape ∉ (headText head).toList := by
      apply clear_headText head
      rintro name rfl
      exact guarded
    exact (unexpected.append clear).append (by decide)
  | noDefault shape | misspelled shape => exact isMessage_ofShape failed shape (by decide) (by decide)
  | unexpectedString shape | unexpectedTruth shape =>
    exact isMessage_ofShape wrong shape (by decide) (by decide)
  | unexpectedNumber shape => exact isMessage_ofShape unsupported shape (by decide) (by decide)
  | unexpectedOpening shape bracket =>
    exact isMessage_ofShape unsupported shape (by decide) (clear_openingWanted shape bracket)
  | bareTag kind =>
    have kindField : IsMessage "Field 'Production::0' in variant '".toList :=
      isMessage_clear (by decide) (by decide)
    exact (kindField.append (clear_kindTag kind)).append (by decide)
  | unknownTag tag => exact isMessage_unknownTag tag
  | noTag | surplusField => exact isMessage_clear (by decide) (by decide)
  | missingField shape name =>
    exact (isMessage_ofShape field shape (by decide) guarded).append (by decide)

end Cause

theorem step_failed {reader : Reader} {lexeme : Lexeme} {failure : Failure}
    (failed : reader.step lexeme = .failed failure) :
    failure.cause.IsGuarded ∧ failure.offset ≤ lexeme.start := by
  unfold Reader.step at failed
  split at failed
  · obtain ⟨refusal, place⟩ := take_failed failed
    exact ⟨refusal.guarded, Nat.le_of_eq place⟩
  · obtain ⟨value, rfl⟩ := skip_failed failed
    exact ⟨trivial, Nat.sub_le _ _⟩

theorem atEnding_failed (reader : Reader) (ending : Ending) :
    (reader.atEnding ending).cause.IsGuarded ∧ (reader.atEnding ending).offset ≤ ending.offset := by
  cases ending with
  | broken flaw => exact ⟨trivial, Nat.sub_le _ _⟩
  | finished offset =>
    unfold Reader.atEnding
    cases reader.skipping with
    | none => exact ⟨trivial, Nat.le_refl _⟩
    | some depth => exact ⟨trivial, Nat.sub_le _ _⟩

theorem read_failed {text : List Char} {failure : Failure} (failed : read text = .error failure) :
    failure.cause.IsGuarded ∧ failure.offset ≤ Scanned.octets text := by
  obtain ⟨items, ending⟩ := Lexemes.ofText_endsAt text
  rcases run_failed failed with ⟨last, rfl⟩ | ⟨last, item, member, stopped⟩
  · obtain ⟨guarded, inside⟩ := atEnding_failed last (Lexemes.ofText text).ending
    exact ⟨guarded, Nat.le_trans inside ending⟩
  · obtain ⟨guarded, inside⟩ := step_failed stopped
    exact ⟨guarded, Nat.le_trans inside (items item member)⟩

theorem detail_eq {text : List Char} {failure : Failure} (failed : read text = .error failure) :
    failure.detail =
      String.ofList (plain failure.cause.message) ++ " at byte " ++ toString failure.offset := by
  have located := plain_located (Cause.isMessage_message (read_failed failed).1) failure.offset
  rw [Failure.detail, located, String.ofList_append, String.ofList_toList, String.append_assoc]

end Compiled

/-- A failure can be evaluated without comparing what the result might hold instead. -/
theorem eq_error_of_map {ε α : Type} {result : Except ε α} {failure : ε}
    (failed : result.map (fun _ => ()) = .error failure) : result = .error failure := by
  cases result with
  | ok value => cases failed
  | error other =>
    cases failed
    rfl

namespace RuleSet

theorem parse_failed {text : String} {violation : Violation} (failed : parse text = .error violation) :
    ∃ failure : Compiled.Failure, Compiled.read text.toList = .error failure ∧
      violation = .malformedNode failure.detail := by
  unfold parse at failed
  split at failed
  · cases failed
  next failure read =>
    cases failed
    exact ⟨failure, read, rfl⟩

/-- The detail of a text that is not parsed ends with the offset that reading it reports, untouched
by what stands before it, and the offset is one in the text. -/
theorem offset_ends_the_detail {text : String} {violation : Violation}
    (failed : parse text = .error violation) :
    ∃ failure : Compiled.Failure, Compiled.read text.toList = .error failure ∧
      violation = .malformedNode (String.ofList (Text.plain failure.cause.message) ++
        " at byte " ++ toString failure.offset) ∧
      failure.offset ≤ text.utf8ByteSize := by
  obtain ⟨failure, read, rfl⟩ := parse_failed failed
  have inside := (Compiled.read_failed read).2
  rw [Json.Scanned.octets_toList] at inside
  exact ⟨failure, read, by rw [Compiled.detail_eq read], inside⟩

/-- A rule whose tag begins a control sequence and does not end it. -/
def unfinishedText : String := "\x7b\"start\":\x7b\"\\u001b[3\":null\x7d\x7d"

def unfinishedDetail : String :=
  "Enum variant not found: in enum Production. Available variants: " ++
    "[lit, seq, alt, opt, ref, cond, span] at byte 10"

/-- The unfinished sequence ends with the colour of the tag. -/
theorem unfinished_tag_keeps_the_offset :
    parse unfinishedText = .error (.malformedNode unfinishedDetail) ∧
      ∃ failure : Compiled.Failure, Compiled.read unfinishedText.toList = .error failure ∧
        .malformedNode unfinishedDetail = Violation.malformedNode
          (String.ofList (Text.plain failure.cause.message) ++ " at byte " ++ toString failure.offset) ∧
        failure.offset ≤ unfinishedText.utf8ByteSize := by
  have failed : parse unfinishedText = .error (.malformedNode unfinishedDetail) := by
    apply eq_error_of_map
    decide +kernel
  exact ⟨failed, offset_ends_the_detail failed⟩

end RuleSet
end PracticeGrammar
