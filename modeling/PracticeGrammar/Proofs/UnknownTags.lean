import PracticeGrammar.Proofs.FailureOffsets
import PracticeGrammar.Proofs.HaltedReading
import PracticeGrammar.Proofs.RoundTrip

/-! Unknown tags are refused wherever they stand, and the message names the first of them. Only what
cannot be read as a token before that is reported in its stead: an integer of more than 128 bits, or a
string with a surrogate that is not one of a pair. -/

namespace PracticeGrammar
open Json

namespace Compiled

private theorem exists_firstTag {notes : List Note} (unknown : ∃ tag, .unknownTag tag ∈ notes) :
    ∃ before tag after, notes = before ++ .unknownTag tag :: after ∧
      ∀ other, .unknownTag other ∉ before := by
  induction notes with
  | nil =>
    obtain ⟨_, member⟩ := unknown
    cases member
  | cons note notes ih =>
    cases note with
    | unknownTag tag => exact ⟨[], tag, notes, rfl, by simp⟩
    | number _ | text _ =>
      have later : ∃ tag, .unknownTag tag ∈ notes := by simpa using unknown
      obtain ⟨before, tag, after, rfl, known⟩ := ih later
      exact ⟨_ :: before, tag, after, rfl, by simpa using known⟩

theorem Leads.front {first last : Focus} {before after : Bool} {front back : List Mark}
    (leads : Leads first before (front ++ back) last after) :
    ∃ middle between, Leads first before front middle between := by
  induction front generalizing first before with
  | nil => exact ⟨first, before, .refl⟩
  | cons mark front ih =>
    cases leads with
    | separator accepted rest =>
      obtain ⟨middle, between, leads⟩ := ih rest
      exact ⟨middle, between, .separator accepted leads⟩
    | close accepted closed rest =>
      obtain ⟨middle, between, leads⟩ := ih rest
      exact ⟨middle, between, .close accepted closed leads⟩
    | value accepted advanced rest =>
      obtain ⟨middle, between, leads⟩ := ih rest
      exact ⟨middle, between, .value accepted advanced leads⟩

section Reading
variable {text : List Char} {front back : List Mark} {outer : Place} {tag : Content}

/-- Where nothing up to the tag is at fault, reading fails at the tag. -/
private theorem read_tag (layout : Layout (front ++ .text tag :: back) text)
    (apart : (front ++ .text tag :: back).IsChain Mark.Apart)
    (clean : faultsIn (front ++ [.text tag]) = [])
    (leads : Leads .document false front (.tag outer) false) (unknown : tag ∉ tags) :
    ∃ name offset, tag = .whole name ∧ read text = .error ⟨.unknownTag name, offset⟩ := by
  have readable := faultsIn_eq_nil_iff.mp clean
  cases tag with
  | torn surrogate => cases readable _ (List.mem_append_right _ List.mem_cons_self)
  | whole name =>
    rw [← List.singleton_append, ← List.append_assoc] at layout apart
    obtain ⟨items, rest, stop, _, scanned, tokens⟩ :=
      Lexemes.scanFrom_append layout apart readable 0 []
    obtain ⟨later, ending, found⟩ := Lexemes.scanFrom_found rest stop (items.reverse ++ [])
    rw [List.map_append] at tokens
    obtain ⟨before, alone, rfl, frontTokens, tagToken⟩ := List.map_eq_append_iff.mp tokens
    obtain ⟨item, rfl, named⟩ := List.map_eq_singleton_iff.mp tagToken
    obtain ⟨base, runs⟩ := leads.run frontTokens ending 0 (item :: later)
    have lexemes : Lexemes.ofText text = ⟨before ++ item :: later, ending⟩ := by
      rw [Lexemes.ofText, scanned, found]
      simp
    refine ⟨name, item.start, rfl, ?_⟩
    unfold read
    rw [lexemes]
    refine Eq.trans runs ?_
    simp only [Reader.run, Reader.step, Reader.take, named, Mark.token, Content.text,
      Expectation.accept, Focus.advance, Focus.fieldName, ofTag?_eq_none unknown, Reader.settle]

/-- Where something up to the tag is at fault, reading fails at the first such mark. -/
private theorem read_fault {fault : Fault} {more : List Fault}
    (layout : Layout (front ++ .text tag :: back) text)
    (apart : (front ++ .text tag :: back).IsChain Mark.Apart)
    (faulty : faultsIn (front ++ [.text tag]) = fault :: more)
    (leads : Leads .document false front (.tag outer) false) :
    ∃ offset, read text = .error ⟨.lexical fault, offset⟩ := by
  obtain ⟨early, mark, late, split, readable, refused, _⟩ := List.filterMap_eq_cons_iff.mp faulty
  have inside : front = early ++ (mark :: late).dropLast := by
    have dropped := congrArg List.dropLast split
    rwa [List.dropLast_concat, List.dropLast_append_cons] at dropped
  rw [← List.singleton_append, ← List.append_assoc, split, List.append_assoc, List.cons_append]
    at layout apart
  obtain ⟨items, rest, stop, remaining, scanned, tokens⟩ :=
    Lexemes.scanFrom_append layout apart readable 0 []
  obtain ⟨place, broken⟩ := Lexemes.scanFrom_refused remaining (List.isChain_append.mp apart).2.1 refused
    stop (items.reverse ++ [])
  have lexemes : Lexemes.ofText text = ⟨items ++ [], .broken ⟨fault, place⟩⟩ := by
    rw [Lexemes.ofText, scanned, broken]
    simp
  rw [inside] at leads
  obtain ⟨last, after, leads⟩ := leads.front
  obtain ⟨base, runs⟩ := leads.run tokens (.broken ⟨fault, place⟩) 0 []
  refine ⟨place - base, ?_⟩
  unfold read
  rw [lexemes]
  exact runs

end Reading

theorem read_of_halts {text : List Char} {marks : List Mark} {before : List Note} {tag : Content}
    (layout : Layout marks text) (apart : marks.IsChain Mark.Apart)
    (halts : Halts .document false marks before tag) :
    (faultsIn ((before ++ [Note.unknownTag tag]).map Note.mark) = [] ∧
      ∃ name offset, tag = .whole name ∧ read text = .error ⟨.unknownTag name, offset⟩) ∨
    ∃ fault more offset, faultsIn ((before ++ [Note.unknownTag tag]).map Note.mark) = fault :: more ∧
      read text = .error ⟨.lexical fault, offset⟩ := by
  obtain ⟨unknown, front, back, outer, rfl, noted, leads⟩ := halts
  have same : faultsIn ((before ++ [Note.unknownTag tag]).map Note.mark) =
      faultsIn (front ++ [.text tag]) := by
    rw [List.map_append, faultsIn_append, faultsIn_append, noted]
    rfl
  rw [same]
  cases found : faultsIn (front ++ [.text tag]) with
  | nil => exact .inl ⟨rfl, read_tag layout apart found leads unknown⟩
  | cons fault more =>
    obtain ⟨offset, failed⟩ := read_fault layout apart found leads
    exact .inr ⟨fault, more, offset, rfl, failed⟩

theorem tag_infix_detail {tag : String} (plainTag : Text.escape ∉ tag.toList)
    (solid : ∀ char ∈ tag.toList, Text.isBlank char = false) (offset : Nat) :
    tag.toList <:+: (Failure.detail ⟨.unknownTag tag, offset⟩).toList := by
  have front : "Enum variant not found: ".toList = "Enum variant not found:".toList ++ [' '] := by decide
  have back : " in enum Production. Available variants: [".toList =
      ' ' :: "in enum Production. Available variants: [".toList := by decide
  have clear : Text.escape ∉ "Enum variant not found:".toList := by decide
  have message : Cause.message (.unknownTag tag) =
      "Enum variant not found: ".toList ++ Text.red tag.toList
        ++ (" in enum Production. Available variants: [" ++ Cause.kindList ++ "]").toList := rfl
  rw [Failure.detail, message, front, String.toList_append, String.toList_append, back,
    String.toList_ofList]
  generalize "Enum variant not found:".toList = front at clear
  simp only [List.append_assoc, List.cons_append, List.nil_append]
  exact Text.infix_plain_of_red clear plainTag solid _

private theorem plain_numberOutOfRange (number : Binary64) :
    Text.plain (Cause.faultMessage (.numberOutOfRange number)) =
      Cause.faultMessage (.numberOutOfRange number) := by
  obtain ⟨something, solid⟩ := number.isWord_text
  have joint : "Number out of range: ".toList = "Number out of range:".toList ++ [' '] := by decide
  have message : Cause.faultMessage (.numberOutOfRange number) =
      "Number out of range:".toList ++ ' ' :: number.text.toList := by
    rw [Cause.faultMessage, String.toList_append, joint, List.append_assoc, List.singleton_append]
  have clear : Text.escape ∉ "Number out of range:".toList ++ ' ' :: number.text.toList := by
    rw [List.mem_append, List.mem_cons, not_or, not_or]
    exact ⟨by decide, by decide, number.clear_text⟩
  have front : Text.fold "Number out of range:".toList = "Number out of range:".toList := by
    decide +kernel
  have back : Text.fold number.text.toList = number.text.toList := by
    rw [Text.fold, Text.words_solid solid something, List.intercalate_singleton]
  rw [message, Text.plain_clear clear, Text.fold_append_blank (by decide +kernel) ?_, front, back]
  rw [Text.words_solid solid something]
  exact List.cons_ne_nil _ _

/-- What can be at fault in a mark is told in words that are plain already. -/
private theorem plain_faultMessage {mark : Mark} {fault : Fault} (refused : mark.fault? = some fault) :
    Text.plain (Cause.faultMessage fault) = Cause.faultMessage fault := by
  rcases Mark.fault?_eq_some refused with ⟨numeral, _, _, rfl⟩ | ⟨surrogate, _, rfl⟩
  · exact plain_numberOutOfRange _
  · split <;> decide +kernel

theorem fault_detail {text : List Char} {mark : Mark} {fault : Fault} {offset : Nat}
    (failed : read text = .error ⟨.lexical fault, offset⟩) (refused : mark.fault? = some fault) :
    Failure.detail ⟨.lexical fault, offset⟩ =
      String.ofList (Cause.faultMessage fault) ++ " at byte " ++ toString offset := by
  have plain : Text.plain (Cause.message (.lexical fault)) = Cause.faultMessage fault :=
    plain_faultMessage refused
  rw [detail_eq failed, plain]

/-- A number is told only of an integer beyond 128 bits, and is the one nearest to it. -/
private theorem outOfRange_of_fault {notes : List Note} {number : Binary64}
    (faulty : .numberOutOfRange number ∈ faultsIn (notes.map Note.mark)) :
    ∃ numeral, .number numeral ∈ notes ∧ ¬numeral.InRange ∧
      Binary64.IsNearest numeral.exactValue number := by
  obtain ⟨mark, among, refused⟩ := List.mem_filterMap.mp faulty
  obtain ⟨note, member, rfl⟩ := List.mem_map.mp among
  rcases Mark.fault?_eq_some refused with ⟨numeral, same, wide, told⟩ | ⟨surrogate, _, told⟩
  · cases told
    cases note with
    | number _ =>
      cases same
      exact ⟨numeral, member, wide, numeral.toBinary64_nearest⟩
    | text _ | unknownTag _ => cases same
  · split at told <;> cases told

private theorem noFaults_of_readable {before : List Note}
    (inRange : ∀ numeral, .number numeral ∈ before → numeral.InRange)
    (whole : ∀ surrogate, .text (.torn surrogate) ∉ before) (known : ∀ other, .unknownTag other ∉ before)
    (name : String) : faultsIn ((before ++ [Note.unknownTag name]).map Note.mark) = [] := by
  rw [faultsIn_eq_nil_iff, List.forall_mem_map, List.forall_mem_append, List.forall_mem_singleton]
  refine ⟨fun note member => ?_, rfl⟩
  cases note with
  | number numeral => exact if_pos (inRange numeral member)
  | unknownTag tag => exact absurd member (known tag)
  | text content =>
    cases content with
    | whole _ => rfl
    | torn surrogate => exact absurd member (whole surrogate)

end Compiled

namespace RuleSet
open Compiled

/-- Rules in the compiled shapes with an unknown tag somewhere are refused. The detail holds the first
such tag as it is, unless it holds blanks or escape characters, and unless an integer of more than 128
bits or a surrogate that is not one of a pair stands before the end of the tag. Then the detail is about
the first of these, an integer being told as the number nearest to it. -/
theorem unknown_tags_are_refused {members : List (Content × Value)} {notes : List Note} {text : String}
    (shaped : ShapedRules members notes) (unknown : ∃ tag, .unknownTag tag ∈ notes)
    (written : (Value.object members).WrittenAs text) :
    ∃ before tag after detail, notes = before ++ .unknownTag tag :: after ∧
      (∀ other, .unknownTag other ∉ before) ∧
      parse text = .error (.malformedNode detail) ∧ load text = .error (.malformedNode detail) ∧
      ((∀ numeral, .number numeral ∈ before → numeral.InRange) →
        (∀ surrogate, .text (.torn surrogate) ∉ before) → ∀ name, tag = .whole name →
        Text.escape ∉ name.toList → (∀ char ∈ name.toList, Text.isBlank char = false) →
        name.toList <:+: detail.toList) ∧
      ∀ fault more, faultsIn ((before ++ [.unknownTag tag]).map Note.mark) = fault :: more →
        (∃ offset : Nat,
          detail = String.ofList (Cause.faultMessage fault) ++ " at byte " ++ toString offset) ∧
        ∀ number, fault = .numberOutOfRange number → ∃ numeral, .number numeral ∈ before ∧
          ¬numeral.InRange ∧ Binary64.IsNearest numeral.exactValue number := by
  obtain ⟨before, tag, after, rfl, known⟩ := exists_firstTag unknown
  have parsed {failure : Failure} (failed : Compiled.read text.toList = .error failure) :
      parse text = .error (.malformedNode failure.detail) := by rw [parse, failed]
  refine ⟨before, tag, after, ?_⟩
  rcases read_of_halts written (Value.marks_apart _) (shaped.halts rfl known) with
    ⟨clean, name, offset, rfl, failed⟩ | ⟨fault, more, offset, faulty, failed⟩
  · refine ⟨_, rfl, known, parsed failed, by rw [load, parsed failed], ?_, ?_⟩
    · intro _ _ other same plainTag solid
      cases same
      exact tag_infix_detail plainTag solid offset
    · intro fault more faulty
      rw [clean] at faulty
      cases faulty
  · obtain ⟨mark, _, refused⟩ := List.mem_filterMap.mp (faulty ▸ List.mem_cons_self)
    refine ⟨_, rfl, known, parsed failed, by rw [load, parsed failed], ?_, ?_⟩
    · intro inRange whole name same
      rw [same, noFaults_of_readable inRange whole known name] at faulty
      cases faulty
    · intro other others same
      rw [faulty] at same
      cases same
      refine ⟨⟨offset, fault_detail failed refused⟩, ?_⟩
      rintro number rfl
      obtain ⟨numeral, member, told⟩ := outOfRange_of_fault (faulty ▸ List.mem_cons_self)
      exact ⟨numeral, by simpa using member, told⟩

/-- A refrain behind another line, in the place of a production that comes with a given probability. -/
def refrainMembers (line : Content) (numeral : Numeral) (refrain : Content) : List (Content × Value) :=
  [("start", .object [("seq", .list [.object [("lit", .text line)],
    .object [("opt", .object [("f", .number numeral),
      ("opt", .object [("repeat", .text refrain)])])]])])]

def refrainText (line number refrain : String) : String :=
  "\x7b\"start\":\x7b\"seq\":[\x7b\"lit\":\"" ++ (line ++
    ("\"\x7d,\x7b\"opt\":\x7b\"f\":" ++ (number ++
      (",\"opt\":\x7b\"repeat\":\"" ++ (refrain ++ "\"\x7d\x7d\x7d]\x7d\x7d")))))

private theorem refrain_shaped (line : Content) (numeral : Numeral) (refrain : Content) :
    ShapedRules (refrainMembers line numeral refrain)
      [.text "start", .text line, .number numeral, .unknownTag "repeat"] := by
  have inner : Shaped (.object [("repeat", .text refrain)]) [.unknownTag "repeat"] :=
    .unknown (by decide)
  have optional : Shaped (.object [("opt", .object [("f", .number numeral),
      ("opt", .object [("repeat", .text refrain)])])]) [.number numeral, .unknownTag "repeat"] :=
    @Shaped.wrapped .opt _ _ _ [("f", .number numeral)] [] (.opt numeral) (.refl _) inner
  exact .cons (.seq (.cons (.lit line) (.cons optional .nil))) .nil

private theorem refrain_writtenAs {line refrain : Content} {numeral : Numeral}
    {lineText numberText lastText : String} (lineWritten : line.WrittenAs lineText.toList)
    (standard : numeral.IsStandard) (numberWritten : numeral.text 'e' = numberText.toList)
    (refrainWritten : refrain.WrittenAs lastText.toList) :
    (Value.object (refrainMembers line numeral refrain)).WrittenAs
      (refrainText lineText numberText lastText) := by
  have number : Spelled (.number numeral) numberText.toList :=
    numberWritten ▸ .number standard (.inl rfl)
  have nothing : IsSpace [] := by simp [IsSpace]
  have layout : Layout
      [.opening .object, .text "start", .colon, .opening .object, .text "seq", .colon, .opening .list,
        .opening .object, .text "lit", .colon, .text line, .closing .object, .comma,
        .opening .object, .text "opt", .colon, .opening .object, .text "f", .colon, .number numeral,
        .comma, .text "opt", .colon, .opening .object, .text "repeat", .colon, .text refrain,
        .closing .object, .closing .object, .closing .object, .closing .list, .closing .object,
        .closing .object] _ :=
    .tight (.opening .object) <| .name "start" (by decide) <|
    .tight (.opening .object) <| .name "seq" (by decide) <| .tight (.opening .list) <|
    .tight (.opening .object) <| .name "lit" (by decide) <|
    .tight (.text lineWritten) <| .tight (.closing .object) <| .tight .comma <|
    .tight (.opening .object) <| .name "opt" (by decide) <|
    .tight (.opening .object) <| .name "f" (by decide) <|
    .tight number <| .tight .comma <| .name "opt" (by decide) <|
    .tight (.opening .object) <| .name "repeat" (by decide) <|
    .tight (.text refrainWritten) <| .tight (.closing .object) <| .tight (.closing .object) <|
    .tight (.closing .object) <| .tight (.closing .list) <| .tight (.closing .object) <|
    .tight (.closing .object) <| .nil nothing
  unfold Value.WrittenAs refrainText
  simp only [String.toList_append]
  convert layout using 1
  · simp [refrainMembers, Value.marks, itemMarks, memberMarks, commaSeparated]
  · simp [Bracket.opener, Bracket.closer]

private theorem lone_writtenAs : (Content.torn 0xD800).WrittenAs "\\ud800".toList :=
  .torn .nil (by decide) (.digits (.inl rfl) (.inl rfl) (.inl rfl) (.inl rfl)) .nil (by
    rintro _ ⟨_, _, _, _, _, _, same⟩
    cases same)

/-- The tag is the first thing wrong with the refrain, deep as it stands. The string behind it, which
is none, is not come to. -/
theorem refrain_is_named :
    ShapedRules (refrainMembers "la" tenth (.torn 0xD800))
        [.text "start", .text "la", .number tenth, .unknownTag "repeat"] ∧
      (Value.object (refrainMembers "la" tenth (.torn 0xD800))).WrittenAs
        (refrainText "la" "0.01e1" "\\ud800") ∧
      ∃ detail, parse (refrainText "la" "0.01e1" "\\ud800") = .error (.malformedNode detail) ∧
        load (refrainText "la" "0.01e1" "\\ud800") = .error (.malformedNode detail) ∧
        "repeat".toList <:+: detail.toList := by
  have standard : tenth.IsStandard := by constructor <;> simp [tenth]
  have shaped := refrain_shaped "la" tenth (.torn 0xD800)
  have lineWritten : Content.WrittenAs "la" "la".toList := .whole (.plain (by decide))
  have written : (Value.object (refrainMembers "la" tenth (.torn 0xD800))).WrittenAs
      (refrainText "la" "0.01e1" "\\ud800") :=
    refrain_writtenAs lineWritten standard rfl lone_writtenAs
  refine ⟨shaped, written, ?_⟩
  obtain ⟨before, tag, after, detail, split, known, parsed, loaded, named, _⟩ :=
    unknown_tags_are_refused shaped ⟨"repeat", by simp⟩ written
  obtain ⟨others, rfl, behindName⟩ := before_of_text split
  obtain ⟨others, rfl, behindLine⟩ := before_of_text behindName
  cases others with
  | nil => cases behindLine
  | cons note others =>
    cases others with
    | cons other others => simp at behindLine
    | nil =>
      cases behindLine
      refine ⟨detail, parsed, loaded, named ?_ ?_ "repeat" rfl (by decide) (by simp [Text.isBlank])⟩
      · intro numeral member integral
        simp only [List.mem_cons, List.not_mem_nil, or_false, reduceCtorEq, false_or,
          Note.number.injEq] at member
        subst member
        cases integral
      · intro surrogate member
        simp at member

/-- An integer of 41 digits. -/
def wide : Numeral := ⟨none, '1' :: List.replicate 40 '0', none, none⟩

/-- An integer of too many digits and a surrogate on its own are each reported in the place of the tag
behind them. -/
theorem unreadable_tokens_hide_the_tag :
    (ShapedRules (refrainMembers "la" wide "")
        [.text "start", .text "la", .number wide, .unknownTag "repeat"] ∧
      (Value.object (refrainMembers "la" wide "")).WrittenAs
        (refrainText "la" "10000000000000000000000000000000000000000" "") ∧
      ∃ detail, parse (refrainText "la" "10000000000000000000000000000000000000000" "") =
        .error (.malformedNode detail) ∧ ¬"repeat".toList <:+: detail.toList) ∧
    (ShapedRules (refrainMembers (.torn 0xD800) tenth "")
        [.text "start", .text (.torn 0xD800), .number tenth, .unknownTag "repeat"] ∧
      (Value.object (refrainMembers (.torn 0xD800) tenth "")).WrittenAs
        (refrainText "\\ud800" "0.01e1" "") ∧
      ∃ detail, parse (refrainText "\\ud800" "0.01e1" "") = .error (.malformedNode detail) ∧
        ¬"repeat".toList <:+: detail.toList) ∧
    Text.escape ∉ "repeat".toList ∧ ∀ char ∈ "repeat".toList, Text.isBlank char = false := by
  have lineWritten : Content.WrittenAs "la" "la".toList := .whole (.plain (by decide))
  have noRefrain : Content.WrittenAs "" "".toList := .whole (.plain (by decide))
  have wideStandard : wide.IsStandard := by constructor <;> simp [wide]
  have tenthStandard : tenth.IsStandard := by constructor <;> simp [tenth]
  refine ⟨⟨refrain_shaped "la" wide "", refrain_writtenAs lineWritten wideStandard (by decide) noRefrain, ?_⟩,
    ⟨refrain_shaped (.torn 0xD800) tenth "",
      refrain_writtenAs lone_writtenAs tenthStandard rfl noRefrain, ?_⟩,
    by decide, by simp [Text.isBlank]⟩
  · exact ⟨"Number out of range: 10000000000000000000000000000000000000000 at byte 1",
      eq_error_of_map (by decide +kernel), by decide +kernel⟩
  · exact ⟨"Invalid UTF-8 encoding: high surrogate not followed by low surrogate at byte 4",
      eq_error_of_map (by decide +kernel), by decide +kernel⟩

end RuleSet
end PracticeGrammar
