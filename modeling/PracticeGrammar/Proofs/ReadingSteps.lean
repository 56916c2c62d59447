import PracticeGrammar.Compiled.Reader
import PracticeGrammar.Proofs.ReadingRules

/-! Reading as a relation between states and tokens. What a reader does with a lexeme hangs on its
token alone and not on where it stands, so reading a text comes out with a rule set if and only if
steps along the first of its tokens do. -/

namespace PracticeGrammar.Compiled
open Json

section Skip
variable {token : Token}

theorem skipStep_pass_iff : Reader.SkipStep.of token = .pass ↔ token = .colon := by
  cases token with
  | scalar value =>
    cases value with
    | number value => cases value <;> simp [Reader.SkipStep.of] <;> split <;> simp
    | null | bool _ | string _ => simp [Reader.SkipStep.of]
  | opening _ | closing _ | colon | comma => simp [Reader.SkipStep.of]

theorem skipStep_opened_iff :
    Reader.SkipStep.of token = .opened ↔ ∃ bracket, token = .opening bracket := by
  cases token with
  | scalar value =>
    cases value with
    | number value => cases value <;> simp [Reader.SkipStep.of] <;> split <;> simp
    | null | bool _ | string _ => simp [Reader.SkipStep.of]
  | opening _ | closing _ | colon | comma => simp [Reader.SkipStep.of]

theorem skipStep_done_iff :
    Reader.SkipStep.of token = .done ↔ ∃ value, token = .scalar value ∧ isWord value = true := by
  cases token with
  | scalar value =>
    cases value with
    | number value => cases value <;> simp [Reader.SkipStep.of, isWord]
    | null | bool _ | string _ => simp [Reader.SkipStep.of, isWord]
  | opening _ | closing _ | colon | comma => simp [Reader.SkipStep.of]

end Skip

/-- A reader without its place in the text. -/
structure Stage where
  focus : Focus
  skipping : Option Nat
  separated : Bool

def Reader.stage (reader : Reader) : Stage := ⟨reader.focus, reader.skipping, reader.separated⟩

def Stage.reader (stage : Stage) (base : Nat) : Reader :=
  ⟨stage.focus, stage.skipping, stage.separated, base⟩

inductive Step : Stage → Token → Stage → Prop where
  | separator {focus token} (announces : focus.expectation.announced true = [token]) :
      Step ⟨focus, none, false⟩ token ⟨focus, none, true⟩
  | close {focus bracket next} (close : Close focus bracket (.reading next)) :
      Step ⟨focus, none, false⟩ (.closing bracket) ⟨next, none, false⟩
  | value {focus separated head next} (advance : Advance focus head (.reading next)) :
      Step ⟨focus, none, separated⟩ head.token ⟨next, none, false⟩
  | unknown {focus separated head next} (advance : Advance focus head (.skipping next)) :
      Step ⟨focus, none, separated⟩ head.token ⟨next, some 0, false⟩
  | colon {focus separated} : Step ⟨focus, some 0, separated⟩ .colon ⟨focus, some 0, separated⟩
  | scalar {focus separated value} (word : isWord value = true) :
      Step ⟨focus, some 0, separated⟩ (.scalar value) ⟨focus, none, false⟩
  | opening {focus separated depth bracket} : Step ⟨focus, some depth, separated⟩ (.opening bracket)
      ⟨focus, some (depth + 1), separated⟩
  | closing {focus separated depth bracket} : Step ⟨focus, some (depth + 2), separated⟩
      (.closing bracket) ⟨focus, some (depth + 1), separated⟩
  | closed {focus separated bracket} :
      Step ⟨focus, some 1, separated⟩ (.closing bracket) ⟨focus, none, false⟩
  | inside {focus separated depth token} (level : isBracket token = false) :
      Step ⟨focus, some (depth + 1), separated⟩ token ⟨focus, some (depth + 1), separated⟩

/-- The last step, to a rule set. -/
inductive Completes : Stage → Token → RuleSet → Prop where
  | value {focus separated head rules} (advance : Advance focus head (.complete rules)) :
      Completes ⟨focus, none, separated⟩ head.token rules
  | close {focus bracket rules} (close : Close focus bracket (.complete rules)) :
      Completes ⟨focus, none, false⟩ (.closing bracket) rules

section Step
variable {reader next : Reader} {lexeme : Lexeme} {rules : RuleSet}

private theorem step_take {focus : Focus} {separated : Bool} {base : Nat}
    (taken : Reader.take ⟨focus, none, separated, base⟩ lexeme = .reading next) :
    Step ⟨focus, none, separated⟩ lexeme.token next.stage := by
  simp only [Reader.take] at taken
  split at taken
  next => cases taken
  next accepted =>
    obtain ⟨rfl, announces⟩ := accept_separator_iff.mp accepted
    cases taken
    exact .separator announces
  next accepted =>
    obtain ⟨rfl, closes⟩ := accept_close_iff.mp accepted
    cases closed : focus.close with
    | error cause =>
      rw [closed] at taken
      cases taken
    | ok progress =>
      obtain ⟨bracket, same, close⟩ := close_of_eq closes closed
      rw [closed] at taken
      rw [same]
      cases progress with
      | reading focus =>
        cases taken
        exact .close close
      | skipping focus => cases close
      | complete rules => cases taken
  next head accepted =>
    rw [accept_head_iff.mp accepted]
    cases advanced : focus.advance head with
    | error cause =>
      rw [advanced] at taken
      cases taken
    | ok progress =>
      have advance := advance_of_eq advanced
      rw [advanced] at taken
      cases progress with
      | reading focus =>
        cases taken
        exact .value advance
      | skipping focus =>
        cases taken
        exact .unknown advance
      | complete rules => cases taken

private theorem settle_complete {progress : Except Cause Progress}
    (settled : Reader.settle lexeme progress = .complete rules) : progress = .ok (.complete rules) := by
  unfold Reader.settle at settled
  split at settled <;> cases settled
  rfl

private theorem step_skip {focus : Focus} {separated : Bool} {base depth : Nat}
    (skipped : Reader.skip ⟨focus, some depth, separated, base⟩ depth lexeme = .reading next) :
    Step ⟨focus, some depth, separated⟩ lexeme.token next.stage := by
  cases depth with
  | zero =>
    cases step : Reader.SkipStep.of lexeme.token <;> simp only [Reader.skip, step] at skipped <;>
      cases skipped
    · rw [skipStep_pass_iff.mp step]
      exact .colon
    · obtain ⟨bracket, same⟩ := skipStep_opened_iff.mp step
      rw [same]
      exact .opening
    · obtain ⟨value, same, word⟩ := skipStep_done_iff.mp step
      rw [same]
      exact .scalar word
  | succ depth =>
    cases token : lexeme.token with
    | opening bracket =>
      simp only [Reader.skip, token] at skipped
      cases skipped
      exact .opening
    | closing bracket =>
      simp only [Reader.skip, token] at skipped
      cases depth <;> cases skipped
      · exact .closed
      · exact .closing
    | colon | comma | scalar _ =>
      simp only [Reader.skip, token] at skipped
      cases skipped
      exact .inside rfl

theorem step_of_reading (stepped : reader.step lexeme = .reading next) :
    Step reader.stage lexeme.token next.stage := by
  obtain ⟨focus, skipping, separated, base⟩ := reader
  cases skipping with
  | none => exact step_take stepped
  | some depth => exact step_skip stepped

theorem completes_of_complete (stepped : reader.step lexeme = .complete rules) :
    Completes reader.stage lexeme.token rules := by
  obtain ⟨focus, skipping, separated, base⟩ := reader
  cases skipping with
  | some depth =>
    simp only [Reader.step, Reader.skip] at stepped
    repeat' split at stepped
    all_goals cases stepped
  | none =>
    simp only [Reader.step, Reader.take] at stepped
    split at stepped
    next => cases stepped
    next => cases stepped
    next accepted =>
      obtain ⟨rfl, closes⟩ := accept_close_iff.mp accepted
      obtain ⟨bracket, same, close⟩ := close_of_eq closes (settle_complete stepped)
      rw [same]
      exact .close close
    next head accepted =>
      rw [accept_head_iff.mp accepted]
      exact .value (advance_of_eq (settle_complete stepped))

theorem Step.reading {stage target : Stage} (step : Step stage lexeme.token target) (base : Nat) :
    ∃ base', (stage.reader base).step lexeme = .reading (target.reader base') := by
  generalize token : lexeme.token = taken at step
  cases step with
  | separator announces =>
    have accepted := accept_separator_iff.mpr ⟨rfl, announces⟩
    exact ⟨base, by simp only [Stage.reader, Reader.step, Reader.take, token, accepted]⟩
  | close close =>
    obtain ⟨closes, closed⟩ := close.close_eq
    have accepted := accept_close_iff.mpr ⟨rfl, closes⟩
    exact ⟨lexeme.stop, by simp only [Stage.reader, Reader.step, Reader.take, token, accepted, closed,
      Reader.settle, Reader.proceed]⟩
  | @value focus separated head next advance =>
    have accepted := @accept_head_iff focus.expectation separated _ head |>.mpr rfl
    exact ⟨lexeme.stop, by simp only [Stage.reader, Reader.step, Reader.take, token, accepted,
      advance.advance_eq, Reader.settle, Reader.proceed]⟩
  | @unknown focus separated head next advance =>
    have accepted := @accept_head_iff focus.expectation separated _ head |>.mpr rfl
    exact ⟨lexeme.stop, by simp only [Stage.reader, Reader.step, Reader.take, token, accepted,
      advance.advance_eq, Reader.settle, Reader.proceed]⟩
  | colon =>
    have passed := skipStep_pass_iff.mpr rfl
    exact ⟨base, by simp only [Stage.reader, Reader.step, Reader.skip, token, passed]⟩
  | scalar word =>
    have done := skipStep_done_iff.mpr ⟨_, rfl, word⟩
    exact ⟨lexeme.stop, by simp only [Stage.reader, Reader.step, Reader.skip, token, done,
      Reader.proceed]⟩
  | @opening focus separated depth bracket =>
    have opened := skipStep_opened_iff.mpr ⟨bracket, rfl⟩
    cases depth <;> exact ⟨base, by simp only [Stage.reader, Reader.step, Reader.skip, token, opened]⟩
  | closing => exact ⟨base, by simp [Stage.reader, Reader.step, Reader.skip, token]⟩
  | closed => exact ⟨lexeme.stop, by simp [Stage.reader, Reader.step, Reader.skip, token, Reader.proceed]⟩
  | inside level =>
    refine ⟨base, ?_⟩
    cases taken with
    | opening _ | closing _ => cases level
    | colon | comma | scalar _ => simp only [Stage.reader, Reader.step, Reader.skip, token]

theorem Completes.complete {stage : Stage} (completes : Completes stage lexeme.token rules)
    (base : Nat) : (stage.reader base).step lexeme = .complete rules := by
  generalize token : lexeme.token = taken at completes
  cases completes with
  | @value focus separated head rules advance =>
    have accepted := @accept_head_iff focus.expectation separated _ head |>.mpr rfl
    simp only [Stage.reader, Reader.step, Reader.take, token, accepted, advance.advance_eq,
      Reader.settle]
  | close close =>
    obtain ⟨closes, closed⟩ := close.close_eq
    have accepted := accept_close_iff.mpr ⟨rfl, closes⟩
    simp only [Stage.reader, Reader.step, Reader.take, token, accepted, closed, Reader.settle]

end Step

inductive Steps : Stage → List Token → Stage → Prop where
  | refl {stage} : Steps stage [] stage
  | head {first middle last token tokens} (step : Step first token middle)
      (rest : Steps middle tokens last) : Steps first (token :: tokens) last

theorem Steps.append {first middle last : Stage} {front back : List Token}
    (steps : Steps first front middle) (more : Steps middle back last) :
    Steps first (front ++ back) last := by
  induction steps with
  | refl => exact more
  | head step _ ih => exact .head step (ih more)

theorem Steps.single {first last : Stage} {token : Token} (step : Step first token last) :
    Steps first [token] last := .head step .refl

private theorem run_of_steps {first last : Stage} {front : List Token} {token : Token}
    {rest : List Token} {rules : RuleSet} (steps : Steps first front last)
    (completes : Completes last token rules) {items : List Lexeme}
    (tokens : items.map Lexeme.token = front ++ token :: rest) (ending : Ending) (base : Nat) :
    Reader.run ending (first.reader base) items = .ok rules := by
  induction steps generalizing items base with
  | refl =>
    obtain ⟨item, items, rfl, rfl, _⟩ := List.map_eq_cons_iff.mp tokens
    simp only [Reader.run, completes.complete base]
  | head step _ ih =>
    obtain ⟨item, items, rfl, rfl, more⟩ := List.map_eq_cons_iff.mp tokens
    obtain ⟨base', stepped⟩ := step.reading base
    simp only [Reader.run, stepped]
    exact ih completes more base'

private theorem steps_of_run {ending : Ending} {reader : Reader} {items : List Lexeme}
    {rules : RuleSet} (ran : Reader.run ending reader items = .ok rules) :
    ∃ front token rest last, items.map Lexeme.token = front ++ token :: rest ∧
      Steps reader.stage front last ∧ Completes last token rules := by
  induction items generalizing reader with
  | nil => cases ran
  | cons item items ih =>
    rw [Reader.run] at ran
    split at ran
    next next stepped =>
      obtain ⟨front, token, rest, last, tokens, steps, completes⟩ := ih ran
      refine ⟨item.token :: front, token, rest, last, ?_, ?_, completes⟩
      · rw [List.map_cons, tokens, List.cons_append]
      · exact .head (step_of_reading stepped) steps
    next stepped =>
      cases ran
      exact ⟨[], item.token, _, _, rfl, .refl, completes_of_complete stepped⟩
    next => cases ran

/-- Whether a reader comes out with a rule set, and with which, hangs on the first tokens alone. -/
theorem run_eq_ok_iff {ending : Ending} {reader : Reader} {items : List Lexeme} {rules : RuleSet} :
    Reader.run ending reader items = .ok rules ↔
      ∃ front token rest last, items.map Lexeme.token = front ++ token :: rest ∧
        Steps reader.stage front last ∧ Completes last token rules := by
  constructor
  · exact steps_of_run
  · rintro ⟨front, token, rest, last, tokens, steps, completes⟩
    exact run_of_steps steps completes tokens ending reader.base

end PracticeGrammar.Compiled
