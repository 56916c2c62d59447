import PracticeGrammar.Proofs.ReadingSteps

/-! Only the lenient format is read. At every moment of a reading the tokens read so far are the
front of a sequence in the lenient format, cut off where the reading stands. One step keeps this,
and so a reading that completes a rule set has read a whole such sequence. -/

namespace PracticeGrammar.Compiled
open Json

/-- The tokens read up to a production at the place, its opening bracket included. -/
def Opens : Place → List Token → Prop
  | .body done name, tokens => ∃ rules comma colon, LenientRules done rules ∧
      tokens = .opening .object :: (rules ++ (heading comma name colon ++ [.opening .object]))
  | .item container before outer, tokens => ∃ front comma colon items separated,
      Opens outer front ∧ LenientItems before.reverse items ∧
      tokens = front ++ (heading comma container.kind.tag colon ++ .opening .list :: (items ++
        (optional .comma separated ++ [.opening .object])))
  | .child wrapper inside outer, tokens => ∃ front known fields comma colon,
      Opens outer front ∧ LenientFields ⟨wrapper, known⟩ inside fields ∧
      tokens = front ++ (fields ++ (heading comma wrapper.kind.tag colon ++ [.opening .object]))

/-- The tokens read up to a state, unless a separator was read last. -/
def ReadTo : Focus → List Token → Prop
  | .document, tokens => tokens = []
  | .rules done, tokens => ∃ rules, LenientRules done rules ∧ tokens = .opening .object :: rules
  | .production place, tokens =>
      ∀ colon, Opens place (tokens ++ (optional .colon colon ++ [.opening .object]))
  | .items container before outer, tokens => ∃ front comma colon items,
      Opens outer front ∧ LenientItems before.reverse items ∧
      tokens = front ++ (heading comma container.kind.tag colon ++ .opening .list :: items)
  | .tag outer, tokens => Opens outer tokens
  | .payload kind outer, tokens => ∃ front comma, Opens outer front ∧
      tokens = front ++ (optional .comma comma ++ [.scalar (.string kind.tag)])
  | .closing finished outer, tokens => ∃ front body, Opens outer front ∧
      LenientBody finished body ∧ tokens = front ++ body
  | .fields draft inside outer, tokens => ∃ front fields, Opens outer front ∧
      LenientFields draft inside fields ∧ tokens = front ++ fields
  | .field gap child inside outer, tokens => ∃ front wrapper name fields comma, Opens outer front ∧
      GapOf wrapper name gap ∧ LenientFields ⟨wrapper, child⟩ inside fields ∧
      tokens = front ++ (fields ++ (optional .comma comma ++ [.scalar (.string name)]))

section Steps
variable {focus next : Focus} {tokens : List Token}

private theorem readTo_deliver {outer : Place} {finished : Production} {front body : List Token}
    (opens : Opens outer front) (complete : LenientBody finished body) :
    ReadTo (Focus.deliver finished outer) (front ++ (body ++ [.closing .object])) := by
  cases outer with
  | body done name =>
    obtain ⟨rules, comma, colon, each, rfl⟩ := opens
    exact ⟨rules ++ (heading comma name colon ++ braces body), .snoc each complete, by simp [braces]⟩
  | item container before outer =>
    obtain ⟨front, comma, colon, items, separated, opens, each, rfl⟩ := opens
    refine ⟨front, comma, colon, items ++ (optional .comma separated ++ braces body), opens, ?_, ?_⟩
    · rw [List.reverse_cons]
      exact .snoc each complete
    · simp [braces]
  | child wrapper inside outer =>
    obtain ⟨front, known, fields, comma, colon, opens, filled, rfl⟩ := opens
    refine ⟨front, fields ++ (heading comma wrapper.kind.tag colon ++ braces body), opens,
      .child filled complete, ?_⟩
    simp [braces]

private theorem readTo_close {bracket : Bracket} (read : ReadTo focus tokens)
    (close : Close focus bracket (.reading next)) : ReadTo next (tokens ++ [.closing bracket]) := by
  cases close with
  | @list container before outer =>
    obtain ⟨front, comma, colon, items, opens, each, rfl⟩ := read
    refine ⟨front, _, opens, @LenientBody.list comma colon _ _ container each, ?_⟩
    simp
  | production =>
    obtain ⟨front, body, opens, complete, rfl⟩ := read
    rw [List.append_assoc]
    exact readTo_deliver opens complete
  | payload =>
    obtain ⟨front, fields, opens, filled, rfl⟩ := read
    refine ⟨front, _, opens, .leave filled, ?_⟩
    rw [List.append_assoc]
  | wrapped whole =>
    obtain ⟨front, fields, opens, filled, rfl⟩ := read
    rw [List.append_assoc]
    exact readTo_deliver opens (.wrapped filled whole)

private theorem readTo_advance {head : Head} (read : ReadTo focus tokens)
    (advance : Advance focus head (.reading next)) (separated : Bool) :
    ReadTo next (tokens ++ (focus.expectation.announced separated ++ [head.token])) := by
  -- The separator in front belongs to the heading or the item that the value begins or goes on.
  cases advance with
  | document =>
    subst read
    exact ⟨[], .nil, rfl⟩
  | rule name =>
    obtain ⟨rules, each, rfl⟩ := read
    intro colon
    refine ⟨rules, separated, colon, each, ?_⟩
    simp [heading]
  | production => exact read separated
  | item =>
    obtain ⟨front, comma, colon, items, opens, each, rfl⟩ := read
    refine ⟨front, comma, colon, items, separated, opens, each, ?_⟩
    simp
  | tag kind => exact ⟨tokens, separated, read, rfl⟩
  | @lit outer scalar text spelled =>
    obtain ⟨front, comma, opens, rfl⟩ := read
    refine ⟨front, _, opens, @LenientBody.lit comma separated scalar text spelled, ?_⟩
    simp [heading, Production.Kind.tag]
  | @ref outer scalar text spelled =>
    obtain ⟨front, comma, opens, rfl⟩ := read
    refine ⟨front, _, opens, @LenientBody.ref comma separated scalar text spelled, ?_⟩
    simp [heading, Production.Kind.tag]
  | none container =>
    obtain ⟨front, comma, opens, rfl⟩ := read
    refine ⟨front, _, opens, @LenientBody.null comma separated container, ?_⟩
    simp [heading]
  | list container =>
    obtain ⟨front, comma, opens, rfl⟩ := read
    refine ⟨front, comma, separated, [], opens, .nil, ?_⟩
    simp [heading]
  | draft bare =>
    obtain ⟨front, comma, opens, rfl⟩ := read
    refine ⟨front, _, opens, @LenientFields.start _ comma separated bare, ?_⟩
    simp [heading]
  | child =>
    obtain ⟨front, fields, opens, filled, rfl⟩ := read
    intro colon
    refine ⟨front, _, fields, separated, colon, opens, filled, ?_⟩
    simp [heading]
  | field known =>
    obtain ⟨front, fields, opens, filled, rfl⟩ := read
    refine ⟨front, _, _, fields, separated, opens, known, filled, ?_⟩
    simp
  | probability value =>
    obtain ⟨front, wrapper, name, fields, comma, opens, known, filled, rfl⟩ := read
    cases known
    refine ⟨front, _, opens, @LenientFields.probability _ _ _ _ _ _ comma separated filled value, ?_⟩
    simp [heading]
  | flag value =>
    obtain ⟨front, wrapper, name, fields, comma, opens, known, filled, rfl⟩ := read
    cases known
    refine ⟨front, _, opens, @LenientFields.flag _ _ _ _ _ _ _ comma separated filled value, ?_⟩
    simp [heading]
  | inverted value =>
    obtain ⟨front, wrapper, name, fields, comma, opens, known, filled, rfl⟩ := read
    cases known
    refine ⟨front, _, opens, @LenientFields.inverted _ _ _ _ _ _ _ comma separated filled value, ?_⟩
    simp [heading]
  | label value =>
    obtain ⟨front, wrapper, name, fields, comma, opens, known, filled, rfl⟩ := read
    cases known
    refine ⟨front, _, opens, @LenientFields.label _ _ _ _ _ _ comma separated filled value, ?_⟩
    simp [heading]

end Steps

/-- The tokens read up to a stage: to its focus and then a separator if there was one, or the name
of an unknown field and some of its value. -/
inductive Reached : Stage → List Token → Prop where
  | reading {focus separated tokens} (read : ReadTo focus tokens) :
      Reached ⟨focus, none, separated⟩ (tokens ++ focus.expectation.announced separated)
  | skipping {draft inside outer depth separated tokens comma name value}
      (read : ReadTo (.fields draft inside outer) tokens) (unknown : name ∉ draft.wrapper.names)
      (skipping : Skipping depth value) :
      Reached ⟨.fields draft inside outer, some depth, separated⟩
        (tokens ++ (optional .comma comma ++ .scalar (.string name) :: value))

private theorem announced_false (expectation : Expectation) : expectation.announced false = [] := by
  cases expectation <;> rfl

private theorem reached_of_readTo {focus : Focus} {tokens : List Token} (read : ReadTo focus tokens) :
    Reached ⟨focus, none, false⟩ tokens := by
  have reached := @Reached.reading focus false tokens read
  rwa [announced_false, List.append_nil] at reached

private theorem reached_skipped {draft : Draft} {inside : Bool} {outer : Place}
    {tokens value : List Token} {name : String} (read : ReadTo (.fields draft inside outer) tokens)
    (unknown : name ∉ draft.wrapper.names) (skipped : Skipped value) (comma : Bool) :
    Reached ⟨.fields draft inside outer, none, false⟩
      (tokens ++ (optional .comma comma ++ .scalar (.string name) :: value)) := by
  obtain ⟨front, fields, opens, filled, rfl⟩ := read
  apply reached_of_readTo
  refine ⟨front, _, opens, @LenientFields.unknown _ _ _ _ _ comma filled unknown skipped, ?_⟩
  rw [List.append_assoc]

theorem Reached.step {stage next : Stage} {tokens : List Token} {token : Token}
    (reached : Reached stage tokens) (step : Step stage token next) : Reached next (tokens ++ [token]) := by
  cases reached with
  | @reading focus separated tokens read =>
    cases step with
    | separator announces =>
      rw [announced_false, List.append_nil, ← announces]
      exact .reading read
    | close close =>
      rw [announced_false, List.append_nil]
      exact reached_of_readTo (readTo_close read close)
    | value advance =>
      rw [List.append_assoc]
      exact reached_of_readTo (readTo_advance read advance separated)
    | unknown advance =>
      cases advance with
      | unknown unknown =>
        rw [List.append_assoc]
        exact .skipping read unknown .start
  | @skipping draft inside outer depth separated tokens comma name value read unknown skipping =>
    rw [List.append_assoc, List.append_assoc, List.cons_append]
    cases step with
    | colon => exact .skipping read unknown skipping.colon
    | scalar word => exact reached_skipped read unknown (.scalar skipping word) comma
    | opening => exact .skipping read unknown (.opening _ skipping)
    | closing => exact .skipping read unknown (.closing _ skipping)
    | closed => exact reached_skipped read unknown (.closed _ skipping) comma
    | inside level => exact .skipping read unknown (.inside skipping level)

theorem Reached.steps {stage last : Stage} {before tokens : List Token} (reached : Reached stage before)
    (steps : Steps stage tokens last) : Reached last (before ++ tokens) := by
  induction steps generalizing before with
  | refl =>
    rw [List.append_nil]
    exact reached
  | head step _ ih =>
    have further := ih (reached.step step)
    rwa [List.append_assoc, List.singleton_append] at further

/-- What completes a rule set closes a whole document. -/
theorem Reached.document {stage : Stage} {tokens : List Token} {token : Token} {rules : RuleSet}
    (reached : Reached stage tokens) (completes : Completes stage token rules) :
    LenientDocument rules (tokens ++ [token]) := by
  cases reached with
  | skipping _ _ _ => nomatch completes
  | reading read =>
    cases completes with
    | value advance =>
      cases advance
      cases read
      exact .null
    | close close =>
      cases close
      obtain ⟨rules, each, rfl⟩ := read
      rw [announced_false, List.append_nil]
      exact .object each

theorem document_of_steps {front : List Token} {token : Token} {last : Stage} {rules : RuleSet}
    (steps : Steps ⟨.document, none, false⟩ front last) (completes : Completes last token rules) :
    LenientDocument rules (front ++ [token]) := by
  have start : Reached ⟨.document, none, false⟩ [] := reached_of_readTo rfl
  exact (start.steps steps).document completes

end PracticeGrammar.Compiled
