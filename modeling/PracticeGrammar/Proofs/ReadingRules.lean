import PracticeGrammar.Compiled.Focus
import PracticeGrammar.Proofs.LenientFormat

/-! What each state of reading accepts, and what it comes to. Beginnings of values and closing
brackets are told apart by the state's expectation; every other token is a separator or an error. -/

namespace PracticeGrammar.Compiled
open Json

/-- The scalar fields, by the wrapper, the name and what the wrapper keeps of its other field. -/
inductive GapOf : Wrapper → String → Gap → Prop where
  | probability (known : Option Binary64) : GapOf (.opt known) "f" .probability
  | flag (known : Option String) (inverted : Option Bool) :
      GapOf (.cond known inverted) "flag" (.flag inverted)
  | inverted (flag : Option String) (known : Option Bool) :
      GapOf (.cond flag known) "inv" (.inverted flag)
  | label (known : Option String) : GapOf (.span known) "class" .label

/-- What a value leads to, by what is expected. -/
inductive Advance : Focus → Head → Progress → Prop where
  | null : Advance .document (.scalar .null) (.complete .empty)
  | document : Advance .document (.opening .object) (.reading (.rules .empty))
  | rule {done} (name : String) :
      Advance (.rules done) (.scalar (.string name)) (.reading (.production (.body done name)))
  | production {place} : Advance (.production place) (.opening .object) (.reading (.tag place))
  | item {container before outer} : Advance (.items container before outer) (.opening .object)
      (.reading (.tag (.item container before outer)))
  | tag {outer} (kind : Production.Kind) :
      Advance (.tag outer) (.scalar (.string kind.tag)) (.reading (.payload kind outer))
  | lit {outer scalar text} (read : LenientText scalar text) :
      Advance (.payload .lit outer) (.scalar scalar) (.reading (.closing (.lit text) outer))
  | ref {outer scalar name} (read : LenientText scalar name) :
      Advance (.payload .ref outer) (.scalar scalar) (.reading (.closing (.ref name) outer))
  | none {outer} (container : Container) : Advance (.payload container.kind outer) (.scalar .null)
      (.reading (.closing (container.build []) outer))
  | list {outer} (container : Container) : Advance (.payload container.kind outer) (.opening .list)
      (.reading (.items container [] outer))
  | draft {outer wrapper} (bare : wrapper ∈ Wrapper.bare) : Advance (.payload wrapper.kind outer)
      (.opening .object) (.reading (.fields ⟨wrapper, none⟩ true outer))
  | child {wrapper known inside outer} : Advance (.fields ⟨wrapper, known⟩ inside outer)
      (.scalar (.string wrapper.kind.tag)) (.reading (.production (.child wrapper inside outer)))
  | field {wrapper child inside outer name gap} (known : GapOf wrapper name gap) :
      Advance (.fields ⟨wrapper, child⟩ inside outer) (.scalar (.string name))
        (.reading (.field gap child inside outer))
  | unknown {draft inside outer name} (unknown : name ∉ draft.wrapper.names) :
      Advance (.fields draft inside outer) (.scalar (.string name))
        (.skipping (.fields draft inside outer))
  | probability {child inside outer scalar value} (read : LenientNumber scalar value) :
      Advance (.field .probability child inside outer) (.scalar scalar)
        (.reading (.fields ⟨.opt (some value), child⟩ inside outer))
  | flag {inverted child inside outer scalar value} (read : LenientText scalar value) :
      Advance (.field (.flag inverted) child inside outer) (.scalar scalar)
        (.reading (.fields ⟨.cond (some value) inverted, child⟩ inside outer))
  | inverted {flag child inside outer scalar value} (read : LenientTruth scalar value) :
      Advance (.field (.inverted flag) child inside outer) (.scalar scalar)
        (.reading (.fields ⟨.cond flag (some value), child⟩ inside outer))
  | label {child inside outer scalar value} (read : LenientText scalar value) :
      Advance (.field .label child inside outer) (.scalar scalar)
        (.reading (.fields ⟨.span (some value), child⟩ inside outer))

/-- What a closing bracket leads to, with its kind. -/
inductive Close : Focus → Bracket → Progress → Prop where
  | document {done} : Close (.rules done) .object (.complete done)
  | list {container before outer} : Close (.items container before outer) .list
      (.reading (.closing (container.build before.reverse) outer))
  | production {finished outer} :
      Close (.closing finished outer) .object (.reading (Focus.deliver finished outer))
  | payload {draft outer} :
      Close (.fields draft true outer) .object (.reading (.fields draft false outer))
  | wrapped {draft finished outer} (whole : Whole draft finished) :
      Close (.fields draft false outer) .object (.reading (Focus.deliver finished outer))

section Scalars
variable {head : Head}

theorem readText_eq_ok_iff {text : String} :
    readText head = .ok text ↔ ∃ scalar, head = .scalar scalar ∧ LenientText scalar text := by
  constructor
  · intro read
    unfold readText at read
    split at read <;> cases read
    · exact ⟨_, rfl, .null⟩
    · exact ⟨_, rfl, .string _⟩
  · rintro ⟨scalar, rfl, read⟩
    cases read <;> rfl

theorem readNumber_eq_ok_iff {value : Binary64} :
    readNumber head = .ok value ↔ ∃ scalar, head = .scalar scalar ∧ LenientNumber scalar value := by
  constructor
  · intro read
    unfold readNumber at read
    split at read
    · cases read
      exact ⟨_, rfl, .null⟩
    · cases read
      exact ⟨_, rfl, .number _⟩
    · split at read <;> cases read
      next spelled => exact ⟨_, rfl, .string spelled⟩
    · cases read
  · rintro ⟨scalar, rfl, read⟩
    cases read with
    | null | number _ => rfl
    | string spelled => simp only [readNumber, spelled]

theorem readTruth_eq_ok_iff {value : Bool} :
    readTruth head = .ok value ↔ ∃ scalar, head = .scalar scalar ∧ LenientTruth scalar value := by
  constructor
  · intro read
    unfold readTruth at read
    split at read
    · cases read
      exact ⟨_, rfl, .null⟩
    · cases read
      exact ⟨_, rfl, .bool _⟩
    · split at read
      next same =>
        cases read
        subst same
        exact ⟨_, rfl, .string true⟩
      · split at read <;> cases read
        next same =>
          subst same
          exact ⟨_, rfl, .string false⟩
    · cases read
  · rintro ⟨scalar, rfl, read⟩
    cases read with
    | null | bool _ => rfl
    | string value => cases value <;> rfl

end Scalars

theorem finish_eq_ok_iff {draft : Draft} {production : Production} :
    draft.finish = .ok production ↔ Whole draft production := by
  constructor
  · intro finished
    unfold Draft.finish at finished
    split at finished <;> cases finished
    · exact .opt _ _
    · exact .cond _ _ _
    · exact .span _ _
  · intro whole
    cases whole <;> rfl

theorem field?_eq_child_iff {wrapper : Wrapper} {name : String} :
    wrapper.field? name = some .child ↔ name = wrapper.kind.tag := by
  cases wrapper <;> grind [Wrapper.field?, Wrapper.kind, Production.Kind.tag]

theorem field?_eq_scalar_iff {wrapper : Wrapper} {name : String} {gap : Gap} :
    wrapper.field? name = some (.scalar gap) ↔ GapOf wrapper name gap := by
  constructor
  · intro known
    cases wrapper <;> simp only [Wrapper.field?] at known <;> repeat' split at known
    all_goals cases known
    all_goals subst_vars
    · exact .probability _
    · exact .flag _ _
    · exact .inverted _ _
    · exact .label _
  · intro known
    cases known <;> rfl

theorem field?_eq_none_iff {wrapper : Wrapper} {name : String} :
    wrapper.field? name = none ↔ name ∉ wrapper.names := by
  cases wrapper <;> grind [Wrapper.field?, Wrapper.names]

theorem Advance.advance_eq {focus : Focus} {head : Head} {progress : Progress}
    (advance : Advance focus head progress) : focus.advance head = .ok progress := by
  cases advance with
  | null | document | rule _ | production | item => rfl
  | tag kind => simp only [Focus.advance, Focus.fieldName, Production.Kind.ofTag?_eq_some_iff.mpr rfl]
  | lit read | ref read =>
    have text := readText_eq_ok_iff.mpr ⟨_, rfl, read⟩
    simp only [Focus.advance, Focus.enterPayload, Focus.enterText, text, Except.map]
  | none container | list container => cases container <;> rfl
  | draft bare =>
    simp only [Wrapper.bare, List.mem_cons, List.not_mem_nil, or_false] at bare
    rcases bare with rfl | rfl | rfl <;> rfl
  | child =>
    simp only [Focus.advance, Focus.fieldName, Except.map, Focus.enterField,
      field?_eq_child_iff.mpr rfl]
  | field known =>
    simp only [Focus.advance, Focus.fieldName, Except.map, Focus.enterField,
      field?_eq_scalar_iff.mpr known]
  | unknown unknown =>
    simp only [Focus.advance, Focus.fieldName, Except.map, Focus.enterField,
      field?_eq_none_iff.mpr unknown]
  | probability read =>
    have number := readNumber_eq_ok_iff.mpr ⟨_, rfl, read⟩
    simp only [Focus.advance, Gap.fill, number, Except.map]
  | flag read | label read =>
    have text := readText_eq_ok_iff.mpr ⟨_, rfl, read⟩
    simp only [Focus.advance, Gap.fill, text, Except.map]
  | inverted read =>
    have truth := readTruth_eq_ok_iff.mpr ⟨_, rfl, read⟩
    simp only [Focus.advance, Gap.fill, truth, Except.map]

section Advance
variable {head : Head} {progress : Progress}

private theorem map_eq_ok {α β : Type} {result : Except Cause α} {f : α → β} {value : β}
    (mapped : result.map f = .ok value) : ∃ found, result = .ok found ∧ f found = value := by
  cases result with
  | error cause => cases mapped
  | ok found =>
    cases mapped
    exact ⟨found, rfl, rfl⟩

private theorem fieldName_eq_ok {name : String} (named : Focus.fieldName head = .ok name) :
    head = .scalar (.string name) := by
  unfold Focus.fieldName at named
  split at named <;> cases named
  rfl

private theorem enter_eq_ok {place : Place} {focus : Focus} (entered : Focus.enter place head = .ok focus) :
    head = .opening .object ∧ focus = .tag place := by
  unfold Focus.enter at entered
  split at entered <;> cases entered
  exact ⟨rfl, rfl⟩

private theorem advance_payload {kind : Production.Kind} {outer : Place} {focus : Focus}
    (entered : Focus.enterPayload kind outer head = .ok focus) :
    Advance (.payload kind outer) head (.reading focus) := by
  have list (container : Container) (entered : Focus.enterList container outer head = .ok focus) :
      Advance (.payload container.kind outer) head (.reading focus) := by
    unfold Focus.enterList at entered
    split at entered <;> cases entered
    · exact .list container
    · exact .none container
  have draft (wrapper : Wrapper) (bare : wrapper ∈ Wrapper.bare)
      (entered : Focus.enterDraft ⟨wrapper, none⟩ outer head = .ok focus) :
      Advance (.payload wrapper.kind outer) head (.reading focus) := by
    unfold Focus.enterDraft at entered
    split at entered <;> cases entered
    exact .draft bare
  cases kind with
  | lit =>
    obtain ⟨text, found, rfl⟩ := map_eq_ok entered
    obtain ⟨scalar, rfl, read⟩ := readText_eq_ok_iff.mp found
    exact .lit read
  | ref =>
    obtain ⟨name, found, rfl⟩ := map_eq_ok entered
    obtain ⟨scalar, rfl, read⟩ := readText_eq_ok_iff.mp found
    exact .ref read
  | seq => exact list .seq entered
  | alt => exact list .alt entered
  | opt => exact draft _ (by decide) entered
  | cond => exact draft _ (by decide) entered
  | span => exact draft _ (by decide) entered

private theorem advance_fields {draft : Draft} {inside : Bool} {outer : Place} (name : String) :
    Advance (.fields draft inside outer) (.scalar (.string name))
      (Focus.enterField draft inside outer name) := by
  unfold Focus.enterField
  split
  next known =>
    rw [field?_eq_child_iff.mp known]
    exact .child
  next gap known => exact .field (field?_eq_scalar_iff.mp known)
  next unknown => exact .unknown (field?_eq_none_iff.mp unknown)

private theorem advance_field {gap : Gap} {child : Option Production} {inside : Bool} {outer : Place}
    {wrapper : Wrapper} (filled : gap.fill head = .ok wrapper) :
    Advance (.field gap child inside outer) head (.reading (.fields ⟨wrapper, child⟩ inside outer)) := by
  cases gap with
  | probability =>
    obtain ⟨value, found, rfl⟩ := map_eq_ok filled
    obtain ⟨scalar, rfl, read⟩ := readNumber_eq_ok_iff.mp found
    exact .probability read
  | flag inverted =>
    obtain ⟨value, found, rfl⟩ := map_eq_ok filled
    obtain ⟨scalar, rfl, read⟩ := readText_eq_ok_iff.mp found
    exact .flag read
  | inverted flag =>
    obtain ⟨value, found, rfl⟩ := map_eq_ok filled
    obtain ⟨scalar, rfl, read⟩ := readTruth_eq_ok_iff.mp found
    exact .inverted read
  | label =>
    obtain ⟨value, found, rfl⟩ := map_eq_ok filled
    obtain ⟨scalar, rfl, read⟩ := readText_eq_ok_iff.mp found
    exact .label read

theorem advance_of_eq {focus : Focus} (advanced : focus.advance head = .ok progress) :
    Advance focus head progress := by
  cases focus with
  | document =>
    simp only [Focus.advance] at advanced
    split at advanced <;> cases advanced
    · exact .document
    · exact .null
  | rules done =>
    obtain ⟨name, named, rfl⟩ := map_eq_ok advanced
    rw [fieldName_eq_ok named]
    exact .rule name
  | production place =>
    obtain ⟨focus, entered, rfl⟩ := map_eq_ok advanced
    obtain ⟨rfl, rfl⟩ := enter_eq_ok entered
    exact .production
  | items container before outer =>
    obtain ⟨focus, entered, rfl⟩ := map_eq_ok advanced
    obtain ⟨rfl, rfl⟩ := enter_eq_ok entered
    exact .item
  | tag outer =>
    simp only [Focus.advance] at advanced
    split at advanced
    · cases advanced
    next name named =>
      split at advanced <;> cases advanced
      next kind known =>
        rw [fieldName_eq_ok named, ← Production.Kind.ofTag?_eq_some_iff.mp known]
        exact .tag kind
  | payload kind outer =>
    obtain ⟨focus, entered, rfl⟩ := map_eq_ok advanced
    exact advance_payload entered
  | closing finished outer =>
    simp only [Focus.advance] at advanced
    split at advanced <;> cases advanced
  | fields draft inside outer =>
    obtain ⟨name, named, rfl⟩ := map_eq_ok advanced
    rw [fieldName_eq_ok named]
    exact advance_fields name
  | field gap child inside outer =>
    obtain ⟨wrapper, filled, rfl⟩ := map_eq_ok advanced
    exact advance_field filled

end Advance

attribute [simp] Focus.expectation

/-- The separator that may come before what is expected, if it did. -/
@[simp]
def Expectation.announced (expectation : Expectation) (separated : Bool) : List Token :=
  match expectation with
  | .value => []
  | .key | .item => optional .comma separated
  | .fieldValue => optional .colon separated

def Expectation.closer : Expectation → List Token
  | .key => [.closing .object]
  | .item => [.closing .list]
  | .value | .fieldValue => []

@[simp]
def Head.token : Head → Token
  | .scalar value => .scalar value
  | .opening bracket => .opening bracket

section Expectation
variable {expectation : Expectation} {separated : Bool} {token : Token}

theorem accept_separator_iff : expectation.accept separated token = .ok .separator ↔
    separated = false ∧ expectation.announced true = [token] := by
  cases token with
  | opening _ | scalar _ =>
    cases expectation <;> simp [Expectation.accept, optional]
  | closing bracket =>
    cases bracket <;> cases expectation <;> cases separated <;>
      simp [Expectation.accept, optional]
  | colon | comma =>
    cases expectation <;> cases separated <;>
      simp [Expectation.accept, optional]

theorem accept_close_iff : expectation.accept separated token = .ok .close ↔
    separated = false ∧ expectation.closer = [token] := by
  cases token with
  | opening _ | scalar _ => cases expectation <;> simp [Expectation.accept, Expectation.closer]
  | closing bracket =>
    cases bracket <;> cases expectation <;> cases separated <;>
      simp [Expectation.accept, Expectation.closer]
  | colon | comma =>
    cases expectation <;> cases separated <;> simp [Expectation.accept, Expectation.closer]

theorem accept_head_iff {head : Head} :
    expectation.accept separated token = .ok (.head head) ↔ token = head.token := by
  cases token with
  | opening _ | scalar _ => cases head <;> simp [Expectation.accept]
  | closing bracket =>
    cases head <;> cases bracket <;> cases expectation <;> cases separated <;>
      simp [Expectation.accept]
  | colon | comma =>
    cases head <;> cases expectation <;> cases separated <;>
      simp [Expectation.accept]

end Expectation

theorem Close.close_eq {focus : Focus} {bracket : Bracket} {progress : Progress}
    (close : Close focus bracket progress) :
    focus.expectation.closer = [.closing bracket] ∧ focus.close = .ok progress := by
  cases close with
  | document | list | production | payload => exact ⟨rfl, rfl⟩
  | wrapped whole => exact ⟨rfl, by simp only [Focus.close, finish_eq_ok_iff.mpr whole, Except.map]⟩

theorem close_of_eq {focus : Focus} {token : Token} {progress : Progress}
    (closes : focus.expectation.closer = [token]) (closed : focus.close = .ok progress) :
    ∃ bracket, token = .closing bracket ∧ Close focus bracket progress := by
  cases focus with
  | document | production _ | payload _ _ | field _ _ _ _ => cases closes
  | tag outer => cases closed
  | rules done =>
    cases closes
    cases closed
    exact ⟨_, rfl, .document⟩
  | items container before outer =>
    cases closes
    cases closed
    exact ⟨_, rfl, .list⟩
  | closing finished outer =>
    cases closes
    cases closed
    exact ⟨_, rfl, .production⟩
  | fields draft inside outer =>
    cases closes
    cases inside with
    | true =>
      cases closed
      exact ⟨_, rfl, .payload⟩
    | false =>
      obtain ⟨finished, found, rfl⟩ := map_eq_ok closed
      exact ⟨_, rfl, .wrapped (finish_eq_ok_iff.mp found)⟩

end PracticeGrammar.Compiled
