import PracticeGrammar.Compiled.Reader

/-! What reading fails for, and where. A token is refused at its own place, in a message that colours
whatever it takes over from the text; all other failures come from the tokens themselves, from the
end of the text, or from a value that cannot be skipped. -/

namespace PracticeGrammar.Compiled
open Json

namespace Cause

/-- The cause is reported with its distance from the last token that was taken, and not with its
place in the text. -/
def isRelative : Cause → Bool
  | .lexical _ | .unskippable _ => true
  | _ => false

/-- Whatever the message takes over from the text is coloured. -/
def IsGuarded : Cause → Prop
  | .noFieldName (.scalar (.string _)) => False
  | .missingField _ field => Text.escape ∉ field.toList
  | _ => True

/-- What a token is refused for at its own place. -/
structure IsRefusal (cause : Cause) : Prop where
  guarded : cause.IsGuarded
  absolute : cause.isRelative = false

end Cause

/-- A result that, if it is a failure at all, refuses a token. -/
def Refuses {α : Type} (result : Except Cause α) : Prop :=
  ∀ cause, result = .error cause → cause.IsRefusal

section Refuses
variable {α β : Type}

theorem refuses_ok (value : α) : Refuses (.ok value) := nofun

theorem refuses_error {cause : Cause} (refusal : cause.IsRefusal) :
    Refuses (.error cause : Except Cause α) := by
  rintro _ ⟨⟩
  exact refusal

theorem Refuses.map {result : Except Cause α} (refuses : Refuses result) (f : α → β) :
    Refuses (result.map f) := by
  cases result with
  | ok value => exact refuses_ok _
  | error cause => exact refuses_error (refuses cause rfl)

end Refuses

theorem isRefusal_refuse (shape : Shape) (head : Head) : (shape.refuse head).IsRefusal := by
  cases head with
  | opening bracket => exact ⟨trivial, rfl⟩
  | scalar value =>
    cases value with
    | null | bool _ | number _ => exact ⟨trivial, rfl⟩
    | string value =>
      -- A string may be a tag, a misspelt scalar, or of no use at all.
      simp only [Shape.refuse]
      split
      · split <;> exact ⟨trivial, rfl⟩
      all_goals exact ⟨trivial, rfl⟩

section Values
variable (head : Head)

theorem refuses_fieldName : Refuses (Focus.fieldName head) := by
  unfold Focus.fieldName
  split
  · exact refuses_ok _
  next noName =>
    apply refuses_error
    refine ⟨?_, rfl⟩
    cases head with
    | opening bracket => trivial
    | scalar value =>
      cases value with
      | string name => exact noName name rfl
      | null | bool _ | number _ => trivial

theorem refuses_readText : Refuses (readText head) := by
  unfold readText
  split
  · exact refuses_ok _
  · exact refuses_ok _
  · exact refuses_error (isRefusal_refuse _ _)

theorem refuses_readNumber : Refuses (readNumber head) := by
  unfold readNumber
  split
  · exact refuses_ok _
  · exact refuses_ok _
  · split
    · exact refuses_ok _
    · exact refuses_error ⟨trivial, rfl⟩
  · exact refuses_error (isRefusal_refuse _ _)

theorem refuses_readTruth : Refuses (readTruth head) := by
  unfold readTruth
  split
  · exact refuses_ok _
  · exact refuses_ok _
  · split
    · exact refuses_ok _
    · split
      · exact refuses_ok _
      · exact refuses_error ⟨trivial, rfl⟩
  · exact refuses_error (isRefusal_refuse _ _)

theorem refuses_fill (gap : Gap) : Refuses (gap.fill head) := by
  cases gap with
  | probability => exact (refuses_readNumber head).map _
  | flag known => exact (refuses_readText head).map _
  | inverted known => exact (refuses_readTruth head).map _
  | label => exact (refuses_readText head).map _

theorem refuses_enter (place : Place) : Refuses (Focus.enter place head) := by
  unfold Focus.enter
  split
  · exact refuses_ok _
  · exact refuses_error (isRefusal_refuse _ _)

private theorem refuses_enterList (container : Container) (outer : Place) :
    Refuses (Focus.enterList container outer head) := by
  unfold Focus.enterList
  split
  · exact refuses_ok _
  · exact refuses_ok _
  · exact refuses_error (isRefusal_refuse _ _)

private theorem refuses_enterDraft (draft : Draft) (outer : Place) :
    Refuses (Focus.enterDraft draft outer head) := by
  unfold Focus.enterDraft
  split
  · exact refuses_ok _
  · exact refuses_error (isRefusal_refuse _ _)

theorem refuses_enterPayload (kind : Production.Kind) (outer : Place) :
    Refuses (Focus.enterPayload kind outer head) := by
  cases kind with
  | lit | ref => exact (refuses_readText head).map _
  | seq | alt => exact refuses_enterList head _ outer
  | opt | cond | span => exact refuses_enterDraft head _ outer

theorem refuses_advance (focus : Focus) : Refuses (focus.advance head) := by
  cases focus with
  | document =>
    simp only [Focus.advance]
    split
    · exact refuses_ok _
    · exact refuses_ok _
    · exact refuses_error (isRefusal_refuse _ _)
  | rules done => exact (refuses_fieldName head).map _
  | production place => exact (refuses_enter head place).map _
  | items container before outer => exact (refuses_enter head _).map _
  | tag outer =>
    simp only [Focus.advance]
    split
    next cause named => exact refuses_error (refuses_fieldName head cause named)
    · split
      · exact refuses_ok _
      · exact refuses_error ⟨trivial, rfl⟩
  | payload kind outer => exact (refuses_enterPayload head kind outer).map _
  | closing finished outer =>
    simp only [Focus.advance]
    split
    next cause named => exact refuses_error (refuses_fieldName head cause named)
    · exact refuses_error ⟨trivial, rfl⟩
  | fields draft inside outer => exact (refuses_fieldName head).map _
  | field gap child inside outer => exact (refuses_fill head gap).map _

end Values

private theorem refuses_missing {α : Type} (shape : Shape) {field : String}
    (clear : Text.escape ∉ field.toList) :
    Refuses (.error (.missingField shape field) : Except Cause α) :=
  refuses_error ⟨clear, rfl⟩

theorem refuses_finish (draft : Draft) : Refuses draft.finish := by
  unfold Draft.finish
  split
  all_goals first | exact refuses_ok _ | exact refuses_missing _ (by decide)

theorem refuses_close (focus : Focus) : Refuses focus.close := by
  cases focus with
  | tag outer => exact refuses_error ⟨trivial, rfl⟩
  | fields draft inside outer =>
    cases inside with
    | true => exact refuses_ok _
    | false => exact (refuses_finish draft).map _
  | document | rules _ | production _ | items _ _ _ | payload _ _ | closing _ _ | field _ _ _ _ =>
    exact refuses_ok _

theorem refuses_accept (expectation : Expectation) (separated : Bool) (token : Token) :
    Refuses (expectation.accept separated token) := by
  unfold Expectation.accept
  split
  all_goals first
    | exact refuses_ok _
    | split <;> first | exact refuses_ok _ | exact refuses_error ⟨trivial, rfl⟩

section Reader
variable {reader : Reader} {lexeme : Lexeme} {failure : Failure}

private theorem settle_failed {progress : Except Cause Progress} (refuses : Refuses progress)
    (failed : Reader.settle lexeme progress = .failed failure) :
    failure.cause.IsRefusal ∧ failure.offset = lexeme.start := by
  cases progress with
  | error cause =>
    cases failed
    exact ⟨refuses cause rfl, rfl⟩
  | ok progress => cases progress <;> cases failed

theorem take_failed (failed : reader.take lexeme = .failed failure) :
    failure.cause.IsRefusal ∧ failure.offset = lexeme.start := by
  unfold Reader.take at failed
  split at failed
  next cause refused =>
    cases failed
    exact ⟨refuses_accept _ _ _ cause refused, rfl⟩
  · cases failed
  · exact settle_failed (refuses_close _) failed
  · exact settle_failed (refuses_advance _ _) failed

theorem skip_failed {depth : Nat} (failed : reader.skip depth lexeme = .failed failure) :
    ∃ value, failure = ⟨.unskippable value, lexeme.start - reader.base⟩ := by
  cases depth with
  | zero =>
    simp only [Reader.skip] at failed
    split at failed <;> cases failed
    exact ⟨_, rfl⟩
  | succ depth =>
    simp only [Reader.skip] at failed
    split at failed
    · cases failed
    · split at failed <;> cases failed
    · cases failed

/-- Reading fails at the end of the tokens or at one of them. -/
theorem run_failed {ending : Ending} {items : List Lexeme}
    (failed : Reader.run ending reader items = .error failure) :
    (∃ last : Reader, last.atEnding ending = failure) ∨
      ∃ (last : Reader) (item : Lexeme), item ∈ items ∧ last.step item = .failed failure := by
  induction items generalizing reader with
  | nil =>
    cases failed
    exact .inl ⟨reader, rfl⟩
  | cons item items ih =>
    rw [Reader.run] at failed
    split at failed
    · rcases ih failed with ending | ⟨last, later, member, stopped⟩
      · exact .inl ending
      · exact .inr ⟨last, later, List.mem_cons_of_mem item member, stopped⟩
    · cases failed
    next stopped =>
      cases failed
      exact .inr ⟨reader, item, List.mem_cons_self, stopped⟩

end Reader

end PracticeGrammar.Compiled
