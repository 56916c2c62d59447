import PracticeGrammar.Proofs.FailureOffsets

/-! Texts with white space put in front of them. All tokens are the same and lie that much later, and
so does a place that a failure is reported at. A distance from the token before it stays what it
is. -/

namespace PracticeGrammar

namespace Json

def Flaw.later (distance : Nat) (flaw : Flaw) : Flaw := { flaw with offset := flaw.offset + distance }

def Lexeme.later (distance : Nat) (lexeme : Lexeme) : Lexeme :=
  ⟨lexeme.token, lexeme.start + distance, lexeme.stop + distance⟩

def Ending.later (distance : Nat) : Ending → Ending
  | .finished offset => .finished (offset + distance)
  | .broken flaw => .broken (flaw.later distance)

def Lexemes.later (distance : Nat) (lexemes : Lexemes) : Lexemes :=
  ⟨lexemes.items.map (Lexeme.later distance), lexemes.ending.later distance⟩

namespace Scanned
variable (distance : Nat)

/-- The same token or the same fault, so much later. -/
def later : Except Flaw (Scanned Token) → Except Flaw (Scanned Token)
  | .ok scanned => .ok { scanned with stop := scanned.stop + distance }
  | .error flaw => .error (flaw.later distance)

private theorem string_later (start offset : Nat) (text found : List Char) (endsInQuote : Bool) :
    string (start + distance) text (offset + distance) found endsInQuote =
      later distance (string start text offset found endsInQuote) := by
  fun_induction string start text offset found endsInQuote with
  | case1 => rw [string]; rfl
  | case2 offset found _ noQuote => rw [string, if_neg noQuote]; rfl
  | case3 => rw [string]; simp only [later, Nat.add_right_comm]; rfl
  | case4 offset found _ rest fault failed _ =>
    rw [string, failed]
    simp only [later, Flaw.later, Nat.add_right_comm _ distance]
    rfl
  | case5 offset found _ rest escape read _ ih =>
    rw [string, read, ← ih]
    simp only [Nat.add_right_comm _ distance]
    rfl
  | case6 offset found _ char rest noQuote noSlash ih =>
    rw [string, if_neg noQuote, if_neg noSlash, ← ih, Nat.add_right_comm]

private theorem keyword_later (first : Char) (tail : String) (scalar : Scalar) (start : Nat)
    (rest : List Char) : keyword first tail scalar (start + distance) rest =
      later distance (keyword first tail scalar start rest) := by
  unfold keyword
  split
  · simp only [later, Nat.add_right_comm _ distance]
  · rfl

private theorem number_later (sign : Option Sign) (text : List Char) (start : Nat) :
    number sign text (start + distance) = later distance (number sign text start) := by
  unfold number
  generalize Numeral.take sign text = taken
  obtain ⟨numeral, rest⟩ := taken
  dsimp only
  cases numberOf numeral with
  | error nearest => rfl
  | ok value => simp only [later, Nat.add_right_comm _ distance]

theorem token_later (start : Nat) (first : Char) (rest : List Char) :
    token (start + distance) first rest = later distance (token start first rest) := by
  unfold token
  split
  case h_7 =>
    rw [Nat.add_right_comm]
    exact string_later distance start (start + 1) rest [] true
  case h_8 | h_9 | h_10 => exact keyword_later distance ..
  case h_11 => exact number_later distance ..
  case h_12 =>
    split
    · exact number_later distance ..
    · rfl
  all_goals simp only [later, Nat.add_right_comm _ distance]

end Scanned

namespace Lexemes
open Scanned

theorem scanFrom_later (distance : Nat) (text : List Char) (offset : Nat) (found : List Lexeme) :
    scanFrom text (offset + distance) (found.map (Lexeme.later distance)) =
      (scanFrom text offset found).later distance := by
  fun_induction scanFrom text offset found with
  | case1 text offset found start blank =>
    rw [scanFrom_blank _ blank, Nat.add_right_comm, Lexemes.later, ← List.map_reverse]
    rfl
  | case2 text offset found start first rest body flaw broken =>
    have broken := (token_later distance start first rest).trans (congrArg _ broken)
    rw [Nat.add_right_comm] at broken
    rw [scanFrom_flaw _ body broken, Lexemes.later, ← List.map_reverse]
    rfl
  | case3 text offset found start first rest body scanned read _ ih =>
    have read := (token_later distance start first rest).trans (congrArg _ read)
    rw [Nat.add_right_comm] at read
    rw [scanFrom_scanned _ body read, ← ih, Nat.add_right_comm]
    rfl

/-- White space only delays what follows it. -/
private theorem scanFrom_space {white : List Char} (space : IsSpace white) (text : List Char)
    (offset : Nat) (found : List Lexeme) :
    scanFrom (white ++ text) offset found = scanFrom text (offset + white.length) found := by
  have blank : ∀ char ∈ white, isBlank char = true := fun char member =>
    isBlank_iff.mpr (space char member)
  have behind : (white ++ text).dropWhile isBlank = text.dropWhile isBlank :=
    List.dropWhile_append_of_pos blank
  have start : offset + ((white ++ text).takeWhile isBlank).length =
      offset + white.length + (text.takeWhile isBlank).length := by
    rw [List.takeWhile_append_of_pos blank, List.length_append, Nat.add_assoc]
  cases body : text.dropWhile isBlank with
  | nil => rw [scanFrom_blank _ body, scanFrom_blank _ (behind.trans body), start]
  | cons first rest =>
    cases read : token (offset + white.length + (text.takeWhile isBlank).length) first rest with
    | error flaw => rw [scanFrom_flaw _ body read, scanFrom_flaw _ (behind.trans body) (start ▸ read)]
    | ok scanned =>
      rw [scanFrom_scanned _ body read, scanFrom_scanned _ (behind.trans body) (start ▸ read), start]

theorem ofText_space {white : List Char} (space : IsSpace white) (text : List Char) :
    ofText (white ++ text) = (ofText text).later white.length := by
  rw [ofText, scanFrom_space space]
  exact scanFrom_later white.length text 0 []

end Lexemes
end Json

namespace Compiled
open Json

/-- The same failure in a text that begins so much later. -/
def Failure.later (distance : Nat) (failure : Failure) : Failure :=
  if failure.cause.isRelative then failure
  else { failure with offset := failure.offset + distance }

namespace Reader
variable (distance : Nat)

def later (reader : Reader) : Reader := { reader with base := reader.base + distance }

def Outcome.later : Outcome → Outcome
  | .reading reader => .reading (reader.later distance)
  | .complete rules => .complete rules
  | .failed failure => .failed (failure.later distance)

private theorem failed_later {cause : Cause} (absolute : cause.isRelative = false) (offset : Nat) :
    Outcome.failed ⟨cause, offset + distance⟩ = (Outcome.failed ⟨cause, offset⟩).later distance := by
  simp [Outcome.later, Failure.later, absolute]

private theorem settle_later (lexeme : Lexeme) {progress : Except Cause Progress}
    (refuses : Refuses progress) : settle (lexeme.later distance) progress =
      (settle lexeme progress).later distance := by
  cases progress with
  | error cause => exact failed_later distance (refuses cause rfl).absolute lexeme.start
  | ok progress => cases progress <;> rfl

theorem take_later (reader : Reader) (lexeme : Lexeme) :
    (reader.later distance).take (lexeme.later distance) = (reader.take lexeme).later distance := by
  have refused := refuses_accept reader.focus.expectation reader.separated lexeme.token
  unfold take
  cases accepted : reader.focus.expectation.accept reader.separated lexeme.token with
  | error cause =>
    simp only [later, Lexeme.later, accepted]
    exact failed_later distance (refused cause accepted).absolute lexeme.start
  | ok accepts =>
    simp only [later, Lexeme.later, accepted]
    cases accepts with
    | separator => rfl
    | close => exact settle_later distance lexeme (refuses_close reader.focus)
    | head head => exact settle_later distance lexeme (refuses_advance head reader.focus)

theorem skip_later (reader : Reader) (depth : Nat) (lexeme : Lexeme) :
    (reader.later distance).skip depth (lexeme.later distance) =
      (reader.skip depth lexeme).later distance := by
  cases depth with
  | zero =>
    simp only [skip, Lexeme.later]
    cases SkipStep.of lexeme.token with
    | refused value =>
      simp only [later, Nat.add_sub_add_right]
      rfl
    | pass | opened | done => rfl
  | succ depth =>
    simp only [skip, Lexeme.later]
    cases lexeme.token with
    | closing bracket =>
      dsimp only
      split <;> rfl
    | opening _ | colon | comma | scalar _ => rfl

theorem step_later (reader : Reader) (lexeme : Lexeme) :
    (reader.later distance).step (lexeme.later distance) = (reader.step lexeme).later distance := by
  have same : (reader.later distance).skipping = reader.skipping := rfl
  unfold step
  rw [same]
  cases reader.skipping with
  | none => exact take_later distance reader lexeme
  | some depth => exact skip_later distance reader depth lexeme

theorem atEnding_later (reader : Reader) (ending : Ending) :
    (reader.later distance).atEnding (ending.later distance) =
      (reader.atEnding ending).later distance := by
  cases ending with
  | broken flaw =>
    simp only [atEnding, Ending.later, Flaw.later, later, Nat.add_sub_add_right]
    rfl
  | finished offset =>
    have same : (reader.later distance).skipping = reader.skipping := rfl
    unfold atEnding
    simp only [Ending.later, same]
    cases reader.skipping with
    | none => rfl
    | some depth =>
      simp only [later, Nat.add_sub_add_right]
      rfl

theorem run_later (ending : Ending) (reader : Reader) (items : List Lexeme) :
    run (ending.later distance) (reader.later distance) (items.map (Lexeme.later distance)) =
      (run ending reader items).mapError (Failure.later distance) := by
  induction items generalizing reader with
  | nil => exact congrArg Except.error (atEnding_later distance reader ending)
  | cons item rest ih =>
    rw [List.map_cons, run, run, step_later]
    cases reader.step item with
    | reading next => exact ih next
    | complete rules => rfl
    | failed failure => rfl

/-- Before its first token, a reader takes no note of where the text begins. -/
private theorem initial_step (lexeme : Lexeme) : (initial.later distance).step lexeme = initial.step lexeme := by
  obtain ⟨token, start, stop⟩ := lexeme
  cases token with
  | closing bracket => cases bracket <;> rfl
  | opening _ | colon | comma | scalar _ => rfl

theorem run_initial_later (ending : Ending) {items : List Lexeme} (some : items ≠ []) :
    run (ending.later distance) initial (items.map (Lexeme.later distance)) =
      (run ending initial items).mapError (Failure.later distance) := by
  obtain ⟨item, rest, rfl⟩ := List.exists_cons_of_ne_nil some
  rw [← run_later, List.map_cons, run, run, initial_step]

end Reader

/-- A failure that is reported with its place moves with the text, and so does one at the first token;
a failure that is reported with its distance from an earlier token stays where it is. -/
theorem read_space {white : List Char} (space : IsSpace white) {text : List Char} {failure : Failure}
    (failed : read text = .error failure) : read (white ++ text) = .error
      (if failure.cause.isRelative ∧ (Lexemes.ofText text).items ≠ [] then failure
        else { failure with offset := failure.offset + white.length }) := by
  have moved : read (white ++ text) = Reader.run ((Lexemes.ofText text).ending.later white.length)
      .initial ((Lexemes.ofText text).items.map (Lexeme.later white.length)) := by
    unfold read
    rw [Lexemes.ofText_space space]
    rfl
  have ran : Reader.run (Lexemes.ofText text).ending .initial (Lexemes.ofText text).items =
      .error failure := failed
  by_cases none : (Lexemes.ofText text).items = []
  · rw [none] at ran
    cases ran
    rw [moved, none, if_neg fun both => both.2 rfl]
    cases (Lexemes.ofText text).ending <;> rfl
  · rw [moved, Reader.run_initial_later _ _ none, ran]
    simp only [Except.mapError, Failure.later, ne_eq, none, not_false_eq_true, and_true]

end Compiled

namespace RuleSet

/-- White space in front of a text that is not parsed adds its length to the offset, unless reading
breaks off at what is no token, or at a value that cannot be skipped, behind some other token: these
are reported with their distance from the last token that was taken, which stays the same. -/
theorem leading_space_moves_the_offset {white text : String} {violation : Violation}
    (space : Json.IsSpace white.toList) (failed : parse text = .error violation) :
    ∃ (failure : Compiled.Failure) (message : String), Compiled.read text.toList = .error failure ∧
      violation = .malformedNode (message ++ " at byte " ++ toString failure.offset) ∧
      parse (white ++ text) = .error (.malformedNode (message ++ " at byte " ++ toString
        (if failure.cause.isRelative ∧ (Json.Lexemes.ofText text.toList).items ≠ [] then failure.offset
          else failure.offset + white.length))) := by
  obtain ⟨failure, read, rfl⟩ := parse_failed failed
  have moved := Compiled.read_space space read
  rw [← String.toList_append] at moved
  refine ⟨failure, String.ofList (Text.plain failure.cause.message), read, ?_, ?_⟩
  · rw [Compiled.detail_eq read]
  · rw [parse, moved]
    dsimp only
    rw [Compiled.detail_eq moved]
    split <;> rfl

/-- A number in the place of a rule. -/
def numberText : String := "\x7b\"start\":1\x7d"

/-- The number is refused at its place, which moves. -/
theorem misplaced_number_moves :
    Json.IsSpace "\n\t".toList ∧ ∃ message,
      parse numberText = .error (.malformedNode (message ++ " at byte " ++ toString 9)) ∧
      parse ("\n\t" ++ numberText) = .error (.malformedNode (message ++ " at byte " ++ toString 11)) := by
  have space : Json.IsSpace "\n\t".toList := by simp [Json.IsSpace]
  have known : Compiled.read numberText.toList = .error ⟨.unexpectedNumber .production, 9⟩ := by
    apply eq_error_of_map
    decide +kernel
  have failed : parse numberText = .error (.malformedNode
      (Compiled.Failure.detail ⟨.unexpectedNumber .production, 9⟩)) := by rw [parse, known]
  obtain ⟨failure, message, read, same, moved⟩ := leading_space_moves_the_offset space failed
  cases read.symm.trans known
  rw [if_neg fun both => Bool.false_ne_true both.1] at moved
  exact ⟨space, message, by rw [failed, same], moved⟩

/-- A stray character behind a token is reported at the same offset behind a space as without it. -/
theorem stray_character_keeps_its_offset :
    Json.IsSpace " ".toList ∧
      parse "\x7bx" = .error (.malformedNode
        ("Unexpected character: got 'x', wanted valid JSON character" ++ " at byte " ++ toString 0)) ∧
      parse (" " ++ "\x7bx") ≠ .error (.malformedNode
        ("Unexpected character: got 'x', wanted valid JSON character" ++ " at byte " ++
          toString (0 + " ".length))) := by
  have stays : parse (" " ++ "\x7bx") = .error (.malformedNode
      ("Unexpected character: got 'x', wanted valid JSON character" ++ " at byte " ++ toString 0)) := by
    apply eq_error_of_map
    decide +kernel
  refine ⟨by simp [Json.IsSpace], eq_error_of_map (by decide +kernel), ?_⟩
  rw [stays, ne_eq, Except.error.injEq]
  decide

end RuleSet
end PracticeGrammar
