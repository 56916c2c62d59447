import PracticeGrammar.Proofs.ReadingSteps

/-! The lenient format is read: along every sequence of its tokens there are steps to the rule set
that the sequence stands for. Each part leads from wherever it may stand to where it is complete,
whatever surrounds it. -/

namespace PracticeGrammar.Compiled
open Json

section Headings
variable {focus next : Focus}

theorem steps_optional {token : Token} (announces : focus.expectation.announced true = [token])
    (present : Bool) : Steps ⟨focus, none, false⟩ (optional token present) ⟨focus, none, present⟩ := by
  cases present with
  | false => exact .refl
  | true => exact .single (.separator announces)

theorem steps_heading {name : String} (key : focus.expectation = .key)
    (fieldValue : next.expectation = .fieldValue)
    (advance : Advance focus (.scalar (.string name)) (.reading next)) (comma colon : Bool) :
    Steps ⟨focus, none, false⟩ (heading comma name colon) ⟨next, none, colon⟩ := by
  have front : focus.expectation.announced true = [.comma] := by rw [key]; rfl
  have back : next.expectation.announced true = [.colon] := by rw [fieldValue]; rfl
  apply (steps_optional front comma).append
  exact .head (.value advance) (steps_optional back colon)

end Headings

theorem Skipping.steps {depth : Nat} {tokens : List Token} (skipping : Skipping depth tokens)
    (focus : Focus) : Steps ⟨focus, some 0, false⟩ tokens ⟨focus, some depth, false⟩ := by
  induction skipping with
  | start => exact .refl
  | colon _ ih => exact ih.append (.single .colon)
  | opening bracket _ ih => exact ih.append (.single .opening)
  | closing bracket _ ih => exact ih.append (.single .closing)
  | inside _ level ih => exact ih.append (.single (.inside level))

theorem Skipped.steps {tokens : List Token} (skipped : Skipped tokens) (focus : Focus) :
    Steps ⟨focus, some 0, false⟩ tokens ⟨focus, none, false⟩ := by
  cases skipped with
  | scalar front word => exact (front.steps focus).append (.single (.scalar word))
  | closed bracket front => exact (front.steps focus).append (.single .closed)

/-- Behind a tag and a scalar, a production is complete. -/
private theorem steps_scalar {kind : Production.Kind} {outer : Place} {scalar : Scalar}
    {finished : Production}
    (advance : Advance (.payload kind outer) (.scalar scalar) (.reading (.closing finished outer)))
    (comma colon : Bool) :
    Steps ⟨.tag outer, none, false⟩ (heading comma kind.tag colon ++ [.scalar scalar])
      ⟨.closing finished outer, none, false⟩ := by
  apply (steps_heading rfl rfl (.tag kind) comma colon).append
  exact .single (.value advance)

private theorem steps_field {wrapper next : Wrapper} {child : Option Production} {inside : Bool}
    {outer : Place} {name : String} {gap : Gap} {scalar : Scalar}
    (known : GapOf wrapper name gap)
    (advance : Advance (.field gap child inside outer) (.scalar scalar)
      (.reading (.fields ⟨next, child⟩ inside outer))) (comma colon : Bool) :
    Steps ⟨.fields ⟨wrapper, child⟩ inside outer, none, false⟩
      (heading comma name colon ++ [.scalar scalar]) ⟨.fields ⟨next, child⟩ inside outer, none, false⟩ := by
  apply (steps_heading rfl rfl (.field known) comma colon).append
  exact .single (.value advance)

mutual
theorem LenientBody.steps {production : Production} {tokens : List Token}
    (body : LenientBody production tokens) (outer : Place) :
    Steps ⟨.tag outer, none, false⟩ (tokens ++ [.closing .object])
      ⟨Focus.deliver production outer, none, false⟩ :=
  match body with
  | .lit read => (steps_scalar (.lit read) _ _).append (.single (.close .production))
  | .ref read => (steps_scalar (.ref read) _ _).append (.single (.close .production))
  | .null container => (steps_scalar (.none container) _ _).append (.single (.close .production))
  | @LenientBody.list comma colon children items container each => by
    -- The children are read last one first, and turned round where their list closes.
    have listed := each.steps container outer
    rw [List.append_assoc]
    apply (steps_heading rfl rfl (.tag container.kind) comma colon).append
    rw [List.cons_append]
    apply Steps.head (.value (.list container))
    apply (listed.append (.single (.close .list))).append
    rw [List.reverse_reverse]
    exact .single (.close .production)
  | .wrapped filled whole => (filled.steps outer).append (.single (.close (.wrapped whole)))
termination_by structural body

theorem LenientItems.steps {children : List Production} {tokens : List Token}
    (items : LenientItems children tokens) (container : Container) (outer : Place) :
    Steps ⟨.items container [] outer, none, false⟩ tokens
      ⟨.items container children.reverse outer, none, false⟩ :=
  match items with
  | .nil => .refl
  | @LenientItems.snoc children child _ _ comma front last => by
    have item := last.steps (.item container children.reverse outer)
    rw [List.reverse_append, List.reverse_singleton, List.singleton_append]
    apply (front.steps container outer).append
    apply (steps_optional rfl comma).append
    exact .head (.value .item) item
termination_by structural items

theorem LenientFields.steps {draft : Draft} {inside : Bool} {tokens : List Token}
    (fields : LenientFields draft inside tokens) (outer : Place) :
    Steps ⟨.tag outer, none, false⟩ tokens ⟨.fields draft inside outer, none, false⟩ :=
  match fields with
  | @LenientFields.start wrapper comma colon bare =>
    (steps_heading rfl rfl (.tag wrapper.kind) comma colon).append (.single (.value (.draft bare)))
  | .leave front => (front.steps outer).append (.single (.close .payload))
  | @LenientFields.child wrapper _ _ inside _ _ comma colon front below => by
    have child := below.steps (.child wrapper inside outer)
    apply (front.steps outer).append
    apply (steps_heading rfl rfl .child comma colon).append
    exact .head (.value .production) child
  | .probability front read => (front.steps outer).append (steps_field (.probability _) (.probability read) _ _)
  | .flag front read => (front.steps outer).append (steps_field (.flag _ _) (.flag read) _ _)
  | .inverted front read => (front.steps outer).append (steps_field (.inverted _ _) (.inverted read) _ _)
  | .label front read => (front.steps outer).append (steps_field (.label _) (.label read) _ _)
  | @LenientFields.unknown _ _ _ _ _ comma front unknown skipped => by
    apply (front.steps outer).append
    apply (steps_optional rfl comma).append
    exact .head (.unknown (.unknown unknown)) (skipped.steps _)
termination_by structural fields
end

theorem LenientRules.steps {rules : RuleSet} {tokens : List Token} (each : LenientRules rules tokens) :
    Steps ⟨.rules .empty, none, false⟩ tokens ⟨.rules rules, none, false⟩ := by
  induction each with
  | nil => exact .refl
  | @snoc done _ name _ _ comma colon _ last ih =>
    apply ih.append
    apply (steps_heading rfl rfl (.rule name) comma colon).append
    exact .head (.value .production) (last.steps (.body done name))

theorem LenientDocument.completes {rules : RuleSet} {tokens : List Token}
    (document : LenientDocument rules tokens) : ∃ front token last, tokens = front ++ [token] ∧
      Steps ⟨.document, none, false⟩ front last ∧ Completes last token rules := by
  cases document with
  | null => exact ⟨[], _, _, rfl, .refl, .value .null⟩
  | object each => exact ⟨_, _, _, rfl, .head (.value .document) each.steps, .close .document⟩

end PracticeGrammar.Compiled
