import Mathlib.Data.List.Permutation
import PracticeGrammar.Compiled.Reader
import PracticeGrammar.Proofs.CompiledEncoding

/-! Reading undoes writing. The marks of a production lead from wherever a production may stand to
the state in which it, or one equal to it, has been delivered to its place; nothing around it
matters. By induction on the production this follows for all of its children, and so for every
order of its fields. -/

namespace PracticeGrammar.Compiled
open Json

/-- The marks lead from one state of reading to another, wherever they stand in a text. The flags
say whether a separator has just been read. -/
inductive Leads : Focus → Bool → List Mark → Focus → Bool → Prop where
  | refl {focus separated} : Leads focus separated [] focus separated
  | separator {focus mark marks last after}
      (accepted : focus.expectation.accept false mark.token = .ok .separator)
      (rest : Leads focus true marks last after) : Leads focus false (mark :: marks) last after
  | close {focus next mark marks last after}
      (accepted : focus.expectation.accept false mark.token = .ok .close)
      (closed : focus.close = .ok (.reading next))
      (rest : Leads next false marks last after) : Leads focus false (mark :: marks) last after
  | value {focus next separated mark head marks last after}
      (accepted : focus.expectation.accept separated mark.token = .ok (.head head))
      (advanced : focus.advance head = .ok (.reading next))
      (rest : Leads next false marks last after) : Leads focus separated (mark :: marks) last after

theorem Leads.append {first middle last : Focus} {before between after : Bool} {front back : List Mark}
    (leads : Leads first before front middle between) (more : Leads middle between back last after) :
    Leads first before (front ++ back) last after := by
  induction leads with
  | refl => exact more
  | separator accepted _ ih => exact .separator accepted (ih more)
  | close accepted closed _ ih => exact .close accepted closed (ih more)
  | value accepted advanced _ ih => exact .value accepted advanced (ih more)

theorem Leads.run {first last : Focus} {before after : Bool} {marks : List Mark}
    (leads : Leads first before marks last after) {items : List Lexeme}
    (tokens : items.map Lexeme.token = marks.map Mark.token) (ending : Ending) (base : Nat)
    (rest : List Lexeme) : ∃ base', Reader.run ending ⟨first, none, before, base⟩ (items ++ rest) =
      Reader.run ending ⟨last, none, after, base'⟩ rest := by
  induction leads generalizing items base with
  | refl =>
    rw [List.map_nil, List.map_eq_nil_iff] at tokens
    subst tokens
    exact ⟨base, rfl⟩
  | separator accepted _ ih =>
    obtain ⟨item, items, rfl, same, tokens⟩ := List.map_eq_cons_iff.mp tokens
    obtain ⟨base', runs⟩ := ih tokens base
    refine ⟨base', Eq.trans ?_ runs⟩
    simp only [List.cons_append, Reader.run, Reader.step, Reader.take, same, accepted]
  | close accepted closed _ ih =>
    obtain ⟨item, items, rfl, same, tokens⟩ := List.map_eq_cons_iff.mp tokens
    obtain ⟨base', runs⟩ := ih tokens item.stop
    refine ⟨base', Eq.trans ?_ runs⟩
    simp only [List.cons_append, Reader.run, Reader.step, Reader.take, same, accepted, closed,
      Reader.settle, Reader.proceed]
  | value accepted advanced _ ih =>
    obtain ⟨item, items, rfl, same, tokens⟩ := List.map_eq_cons_iff.mp tokens
    obtain ⟨base', runs⟩ := ih tokens item.stop
    refine ⟨base', Eq.trans ?_ runs⟩
    simp only [List.cons_append, Reader.run, Reader.step, Reader.take, same, accepted, advanced,
      Reader.settle, Reader.proceed]

/-- The pieces lead one by one from state to state, each with or without a comma in front. -/
inductive LeadsThrough : Focus → List (List Mark) → Focus → Prop where
  | nil {focus} : LeadsThrough focus [] focus
  | cons {first next piece pieces last}
      (comma : first.expectation.accept false .comma = .ok .separator)
      (leads : ∀ separated, Leads first separated piece next false)
      (rest : LeadsThrough next pieces last) : LeadsThrough first (piece :: pieces) last

theorem LeadsThrough.commaSeparated {first last : Focus} {pieces : List (List Mark)}
    (through : LeadsThrough first pieces last) :
    Leads first false (commaSeparated pieces) last false := by
  have more {first last : Focus} {pieces : List (List Mark)} (through : LeadsThrough first pieces last) :
      Leads first false (pieces.flatMap (.comma :: ·)) last false := by
    induction through with
    | nil => exact .refl
    | cons comma leads _ ih => exact .separator comma ((leads true).append ih)
  cases through with
  | nil => exact .refl
  | cons _ leads rest => exact (leads false).append (more rest)

def Awaits (focus : Focus) (place : Place) : Prop :=
  ∀ head, focus.advance head = (Focus.enter place head).map .reading

/-- Wherever a production is due, the value is read as the given one. -/
def ReadAs (value : Value) (result : Production) : Prop :=
  ∀ focus place separated, Awaits focus place →
    Leads focus separated value.marks (Focus.deliver result place) false

/-- The tag of a production leads to its payload. -/
theorem leads_payload {focus : Focus} {place : Place} (awaits : Awaits focus place) (separated : Bool)
    (kind : Production.Kind) : Leads focus separated [.opening .object, .text kind.tag, .colon]
      (.payload kind place) true := by
  have named : (Focus.tag place).advance (.scalar (.string kind.tag)) =
      .ok (.reading (.payload kind place)) := by
    simp only [Focus.advance, Focus.fieldName, Production.Kind.ofTag?_eq_some_iff.mpr rfl]
  apply Leads.value rfl (awaits _)
  apply Leads.value rfl named
  exact .separator rfl .refl

/-- A production with one tag, if its payload leads to where the production may be closed. -/
theorem readAs_tagged {kind : Production.Kind} {payload : Value} {result : Production}
    (inside : ∀ place, ∃ last, Leads (.payload kind place) true payload.marks last false ∧
      last.expectation = .key ∧ last.close = .ok (.reading (Focus.deliver result place))) :
    ReadAs (.object [(kind.tag, payload)]) result := by
  intro focus place separated awaits
  obtain ⟨last, leads, key, closed⟩ := inside place
  have marks : (Value.object [(kind.tag, payload)]).marks =
      [.opening .object, .text kind.tag, .colon] ++ (payload.marks ++ [.closing .object]) := by
    simp [Value.marks, memberMarks, commaSeparated]
  rw [marks]
  apply (leads_payload awaits separated kind).append
  apply leads.append
  exact .close (by rw [key]; rfl) closed .refl

theorem readAs_lit (content : Content) : ReadAs (.object [("lit", .text content)]) (.lit content.text) :=
  @readAs_tagged .lit _ _ fun place => ⟨.closing (.lit content.text) place, .value rfl rfl .refl, rfl, rfl⟩

theorem readAs_ref (content : Content) : ReadAs (.object [("ref", .text content)]) (.ref content.text) :=
  @readAs_tagged .ref _ _ fun place => ⟨.closing (.ref content.text) place, .value rfl rfl .refl, rfl, rfl⟩

theorem leadsThrough_items {items : List Value} {results : List Production}
    (each : List.Forall₂ ReadAs items results) (container : Container) (before : List Production)
    (place : Place) : LeadsThrough (.items container before place) (itemMarks items)
      (.items container (results.reverse ++ before) place) := by
  induction each generalizing before with
  | nil => exact .nil
  | @cons value result items results first _ ih =>
    rw [List.reverse_cons, List.append_assoc, List.singleton_append]
    refine .cons rfl ?_ (ih (result :: before))
    intro separated
    exact first _ (.item container before place) separated fun _ => rfl

private theorem leads_items {container : Container} {place : Place} {items : List Value}
    {results : List Production} (each : List.Forall₂ ReadAs items results) :
    Leads (.items container [] place) false (commaSeparated (itemMarks items) ++ [.closing .list])
      (.closing (container.build results) place) false := by
  refine (leadsThrough_items each container [] place).commaSeparated.append (.close rfl ?_ .refl)
  rw [Focus.close, List.append_nil, List.reverse_reverse]

theorem readAs_seq {items : List Value} {results : List Production}
    (each : List.Forall₂ ReadAs items results) :
    ReadAs (.object [("seq", .list items)]) (.seq results) :=
  @readAs_tagged .seq _ _ fun place =>
    ⟨.closing (.seq results) place, .value rfl rfl (@leads_items .seq _ _ _ each), rfl, rfl⟩

theorem readAs_alt {items : List Value} {results : List Production}
    (each : List.Forall₂ ReadAs items results) :
    ReadAs (.object [("alt", .list items)]) (.alt results) :=
  @readAs_tagged .alt _ _ fun place =>
    ⟨.closing (.alt results) place, .value rfl rfl (@leads_items .alt _ _ _ each), rfl, rfl⟩

/-- One field turns a payload object with some fields into another. -/
def Fills (draft : Draft) (member : Content × Value) (next : Draft) : Prop :=
  ∀ place separated, Leads (.fields draft true place) separated
    (.text member.1 :: .colon :: member.2.marks) (.fields next true place) false

inductive FillsAll : Draft → List (Content × Value) → Draft → Prop where
  | nil {draft} : FillsAll draft [] draft
  | cons {draft next last member members} (first : Fills draft member next)
      (rest : FillsAll next members last) : FillsAll draft (member :: members) last

section Fields
variable {wrapper : Wrapper} {child : Option Production} {name : String}

theorem fills_scalar {gap : Gap} {value : Value} {mark : Mark} {scalar : Scalar} {next : Wrapper}
    (known : wrapper.field? name = some (.scalar gap)) (single : value.marks = [mark])
    (token : mark.token = .scalar scalar) (filled : gap.fill (.scalar scalar) = .ok next) :
    Fills ⟨wrapper, child⟩ (name, value) ⟨next, child⟩ := by
  intro place separated
  have named : (Focus.fields ⟨wrapper, child⟩ true place).advance (.scalar (.string name)) =
      .ok (.reading (.field gap child true place)) := by
    simp only [Focus.advance, Focus.fieldName, Except.map, Focus.enterField, known]
  have read : (Focus.field gap child true place).advance (.scalar scalar) =
      .ok (.reading (.fields ⟨next, child⟩ true place)) := by
    simp only [Focus.advance, filled, Except.map]
  rw [single]
  apply Leads.value rfl named
  apply Leads.separator rfl
  exact .value (by rw [token]; rfl) read .refl

/-- The name of a child leads to where the child may stand. -/
theorem leads_child (known : wrapper.field? name = some .child) (separated : Bool) (place : Place) :
    Leads (.fields ⟨wrapper, child⟩ true place) separated [.text name, .colon]
      (.production (.child wrapper true place)) true := by
  have named : (Focus.fields ⟨wrapper, child⟩ true place).advance (.scalar (.string name)) =
      .ok (.reading (.production (.child wrapper true place))) := by
    simp only [Focus.advance, Focus.fieldName, Except.map, Focus.enterField, known]
  exact .value rfl named (.separator rfl .refl)

theorem fills_child {value : Value} {result : Production} (known : wrapper.field? name = some .child)
    (read : ReadAs value result) : Fills ⟨wrapper, child⟩ (name, value) ⟨wrapper, some result⟩ := by
  intro place separated
  apply (leads_child known separated place).append
  exact read _ (.child wrapper true place) true fun _ => rfl

end Fields

theorem FillsAll.leadsThrough {draft last : Draft} {members : List (Content × Value)}
    (filled : FillsAll draft members last) (place : Place) :
    LeadsThrough (.fields draft true place) (memberMarks members) (.fields last true place) := by
  induction filled with
  | nil => exact .nil
  | cons first _ ih => exact .cons rfl (first place) ih

theorem leads_draft {kind : Production.Kind} {draft : Draft}
    (opened : ∀ place, Focus.enterPayload kind place (.opening .object) = .ok (.fields draft true place))
    (place : Place) :
    Leads (.payload kind place) true [.opening .object] (.fields draft true place) false := by
  have entered : (Focus.payload kind place).advance (.opening .object) =
      .ok (.reading (.fields draft true place)) := by
    simp only [Focus.advance, opened, Except.map]
  exact .value rfl entered .refl

theorem readAs_draft {kind : Production.Kind} {draft last : Draft} {members : List (Content × Value)}
    {result : Production}
    (opened : ∀ place, Focus.enterPayload kind place (.opening .object) = .ok (.fields draft true place))
    (filled : FillsAll draft members last) (finished : last.finish = .ok result) :
    ReadAs (.object [(kind.tag, .object members)]) result := by
  refine readAs_tagged fun place => ⟨.fields last false place, ?_, rfl, ?_⟩
  · apply (leads_draft opened place).append
    exact (filled.leadsThrough place).commaSeparated.append (.close rfl rfl .refl)
  · simp only [Focus.close, finished, Except.map]

section Scalars
variable {child : Option Production}

theorem fills_probability (known : Option Binary64) (numeral : Numeral) :
    Fills ⟨.opt known, child⟩ ("f", .number numeral)
      ⟨.opt (some (Number.ofNumeral numeral).toBinary64), child⟩ :=
  @fills_scalar _ _ _ .probability _ _ _ _ rfl rfl rfl rfl

theorem fills_label (known : Option String) (label : Content) :
    Fills ⟨.span known, child⟩ ("class", .text label) ⟨.span (some label.text), child⟩ :=
  @fills_scalar _ _ _ .label _ _ _ _ rfl rfl rfl rfl

theorem fills_flag (known : Option String) (truth : Option Bool) (flag : Content) :
    Fills ⟨.cond known truth, child⟩ ("flag", .text flag) ⟨.cond (some flag.text) truth, child⟩ :=
  @fills_scalar _ _ _ (.flag truth) _ _ _ _ rfl rfl rfl rfl

theorem fills_inverted (known : Option String) (truth : Option Bool) (inverted : Bool) :
    Fills ⟨.cond known truth, child⟩ ("inv", .truth inverted) ⟨.cond known (some inverted), child⟩ :=
  @fills_scalar _ _ _ (.inverted known) _ _ _ _ rfl rfl rfl rfl

end Scalars

section Payloads
variable {fields : List (Content × Value)} {inner : Value} {result : Production}

theorem readAs_opt {numeral : Numeral} (order : fields.Perm [("f", .number numeral), ("opt", inner)])
    (read : ReadAs inner result) :
    ReadAs (.object [("opt", .object fields)])
      (.opt (Number.ofNumeral numeral).toBinary64 result) := by
  have wrapped (probability child) : Fills ⟨.opt probability, child⟩ ("opt", inner)
      ⟨.opt probability, some result⟩ := fills_child rfl read
  have filled : FillsAll ⟨.opt none, none⟩ fields
      ⟨.opt (some (Number.ofNumeral numeral).toBinary64), some result⟩ := by
    rcases List.perm_pair.mp order with rfl | rfl
    · exact .cons (fills_probability _ _) (.cons (wrapped _ _) .nil)
    · exact .cons (wrapped _ _) (.cons (fills_probability _ _) .nil)
  exact @readAs_draft .opt _ _ _ _ (fun _ => rfl) filled rfl

theorem readAs_span {label : Content} (order : fields.Perm [("class", .text label), ("span", inner)])
    (read : ReadAs inner result) :
    ReadAs (.object [("span", .object fields)]) (.span label.text result) := by
  have wrapped (known child) : Fills ⟨.span known, child⟩ ("span", inner)
      ⟨.span known, some result⟩ := fills_child rfl read
  have filled : FillsAll ⟨.span none, none⟩ fields ⟨.span (some label.text), some result⟩ := by
    rcases List.perm_pair.mp order with rfl | rfl
    · exact .cons (fills_label _ _) (.cons (wrapped _ _) .nil)
    · exact .cons (wrapped _ _) (.cons (fills_label _ _) .nil)
  exact @readAs_draft .span _ _ _ _ (fun _ => rfl) filled rfl

private theorem perm_triple {α : Type} {items : List α} {first second third : α}
    (order : items.Perm [first, second, third]) :
    items = [first, second, third] ∨ items = [first, third, second] ∨
      items = [second, first, third] ∨ items = [second, third, first] ∨
      items = [third, first, second] ∨ items = [third, second, first] := by
  have listed := List.mem_permutations.mpr order
  simp [List.permutations, List.permutationsAux, List.permutationsAux.rec] at listed
  tauto

theorem readAs_cond {flag : Content} {inverted : Bool}
    (order : fields.Perm [("flag", .text flag), ("inv", .truth inverted), ("cond", inner)])
    (read : ReadAs inner result) :
    ReadAs (.object [("cond", .object fields)]) (.cond flag.text inverted result) := by
  have wrapped (known truth child) : Fills ⟨.cond known truth, child⟩ ("cond", inner)
      ⟨.cond known truth, some result⟩ := fills_child rfl read
  have filled : FillsAll ⟨.cond none none, none⟩ fields
      ⟨.cond (some flag.text) (some inverted), some result⟩ := by
    rcases perm_triple order with rfl | rfl | rfl | rfl | rfl | rfl
    · exact .cons (fills_flag _ _ _) (.cons (fills_inverted _ _ _) (.cons (wrapped _ _ _) .nil))
    · exact .cons (fills_flag _ _ _) (.cons (wrapped _ _ _) (.cons (fills_inverted _ _ _) .nil))
    · exact .cons (fills_inverted _ _ _) (.cons (fills_flag _ _ _) (.cons (wrapped _ _ _) .nil))
    · exact .cons (fills_inverted _ _ _) (.cons (wrapped _ _ _) (.cons (fills_flag _ _ _) .nil))
    · exact .cons (wrapped _ _ _) (.cons (fills_flag _ _ _) (.cons (fills_inverted _ _ _) .nil))
    · exact .cons (wrapped _ _ _) (.cons (fills_inverted _ _ _) (.cons (fills_flag _ _ _) .nil))
  exact @readAs_draft .cond _ _ _ _ (fun _ => rfl) filled rfl

end Payloads

private theorem allReadAs {children : List Production} {items : List Value}
    (each : ∀ child ∈ children, ∀ value, child.EncodedAs value →
      ∃ result, result.equal child = true ∧ ReadAs value result)
    (encoded : Production.AllEncodedAs children items) :
    ∃ results, Production.equalAll results children = true ∧ List.Forall₂ ReadAs items results := by
  induction children generalizing items with
  | nil =>
    cases items with
    | nil => exact ⟨[], rfl, .nil⟩
    | cons _ _ => cases encoded
  | cons child children ih =>
    cases items with
    | nil => cases encoded
    | cons value items =>
      obtain ⟨first, rest⟩ := encoded
      obtain ⟨result, same, read⟩ := each child List.mem_cons_self value first
      obtain ⟨results, allSame, allRead⟩ := ih
        (fun child member => each child (List.mem_cons_of_mem _ member)) rest
      exact ⟨result :: results, by simp [Production.equalAll, same, allSame], .cons read allRead⟩

/-- A rule name leads to the body of the rule. -/
theorem leads_ruleName (done : RuleSet) (name : Content) (separated : Bool) :
    Leads (.rules done) separated [.text name, .colon] (.production (.body done name.text)) true :=
  .value rfl rfl (.separator rfl .refl)

theorem leads_rule {value : Value} {result : Production} (read : ReadAs value result) (done : RuleSet)
    (name : Content) (separated : Bool) : Leads (.rules done) separated
      (.text name :: .colon :: value.marks) (.rules (done.insert name.text result)) false := by
  apply (leads_ruleName done name separated).append
  exact read _ (.body done name.text) true fun _ => rfl

/-- What writes a production is read as a production equal to it. -/
theorem readAs_of_encodedAs {production : Production} {value : Value}
    (encoded : production.EncodedAs value) :
    ∃ result, result.equal production = true ∧ ReadAs value result := by
  induction production using Production.childInduction generalizing value with
  | step production ih =>
    cases production with
    | lit text =>
      cases encoded
      exact ⟨.lit text, by simp [Production.equal], readAs_lit text⟩
    | ref name =>
      cases encoded
      exact ⟨.ref name, by simp [Production.equal], readAs_ref name⟩
    | seq children =>
      obtain ⟨items, rfl, all⟩ := encoded
      obtain ⟨results, same, each⟩ := allReadAs (fun child member _ => ih child member) all
      refine ⟨.seq results, ?_, readAs_seq each⟩
      rw [Production.equal]
      exact same
    | alt children =>
      obtain ⟨items, rfl, all⟩ := encoded
      obtain ⟨results, same, each⟩ := allReadAs (fun child member _ => ih child member) all
      refine ⟨.alt results, ?_, readAs_alt each⟩
      rw [Production.equal]
      exact same
    | opt probability child =>
      obtain ⟨fields, numeral, inner, rfl, order, ⟨nearest, _⟩, written⟩ := encoded
      obtain ⟨result, same, read⟩ := ih child List.mem_cons_self written
      have number := (Number.ofNumeral_nearest numeral).equal nearest
      exact ⟨.opt _ result, by simp [Production.equal, number, same], readAs_opt order read⟩
    | cond flag inverted child =>
      obtain ⟨fields, inner, rfl, order, written⟩ := encoded
      obtain ⟨result, same, read⟩ := ih child List.mem_cons_self written
      exact ⟨.cond flag inverted result, by simp [Production.equal, same], readAs_cond order read⟩
    | span label child =>
      obtain ⟨fields, inner, rfl, order, written⟩ := encoded
      obtain ⟨result, same, read⟩ := ih child List.mem_cons_self written
      exact ⟨.span label result, by simp [Production.equal, same], readAs_span order read⟩

end PracticeGrammar.Compiled
