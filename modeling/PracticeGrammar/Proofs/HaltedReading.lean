import PracticeGrammar.Proofs.CompiledShapes

/-! Reading a value goes in the order of the text up to its first unknown tag. Whatever lists and
payload objects that tag stands in, all that stands before it is read, and it is then due as the
tag of a node. -/

namespace PracticeGrammar.Compiled
open Json

/-- From the state, the marks lead to an unknown tag, and the faults on the way are those of what is
noted before it. -/
def Halts (focus : Focus) (separated : Bool) (marks : List Mark) (before : List Note)
    (tag : Content) : Prop :=
  tag ∉ tags ∧ ∃ front back outer, marks = front ++ .text tag :: back ∧
    faultsIn front = faultsIn (before.map Note.mark) ∧ Leads focus separated front (.tag outer) false

section Halts
variable {focus next : Focus} {separated between : Bool} {lead marks : List Mark}
  {before behind : List Note} {tag : Content}

theorem Halts.append (halts : Halts focus separated marks before tag) (more : List Mark) :
    Halts focus separated (marks ++ more) before tag := by
  obtain ⟨unknown, front, back, outer, rfl, noted, leads⟩ := halts
  refine ⟨unknown, front, back ++ more, outer, ?_, noted, leads⟩
  rw [List.append_assoc, List.cons_append]

theorem Halts.after (halts : Halts next between marks behind tag)
    (leads : Leads focus separated lead next between)
    (noted : faultsIn lead = faultsIn (before.map Note.mark)) :
    Halts focus separated (lead ++ marks) (before ++ behind) tag := by
  obtain ⟨unknown, front, back, outer, rfl, behindNoted, more⟩ := halts
  refine ⟨unknown, lead ++ front, back, outer, ?_, ?_, leads.append more⟩
  · rw [List.append_assoc]
  · rw [faultsIn_append, List.map_append, faultsIn_append, noted, behindNoted]

/-- Nothing in front of the tag can be at fault. -/
theorem Halts.afterSymbols (halts : Halts next between marks before tag)
    (leads : Leads focus separated lead next between) (clean : faultsIn lead = []) :
    Halts focus separated (lead ++ marks) before tag :=
  @Halts.after _ _ _ _ _ _ [] _ _ halts leads clean

private theorem commaSeparated_append (first : List Mark) (past : List (List Mark)) (piece : List Mark)
    (later : List (List Mark)) : commaSeparated (first :: past ++ piece :: later) =
      (commaSeparated (first :: past) ++ [.comma]) ++ (piece ++ later.flatMap (.comma :: ·)) := by
  simp [commaSeparated]

theorem LeadsThrough.halts {past later : List (List Mark)} {piece : List Mark}
    (through : LeadsThrough focus past next)
    (comma : next.expectation.accept false .comma = .ok .separator)
    (noted : past.flatMap faultsIn = faultsIn (before.map Note.mark))
    (halts : ∀ separated, Halts next separated piece behind tag) :
    Halts focus false (Json.commaSeparated (past ++ piece :: later)) (before ++ behind) tag := by
  -- A comma stands in front of the piece unless it is the first one.
  cases past with
  | nil =>
    cases through
    have here := (halts false).append (later.flatMap (.comma :: ·))
    exact @Halts.after _ _ _ _ [] _ before _ _ here .refl noted
  | cons first rest =>
    have separator : Leads next false [.comma] next true := .separator comma .refl
    rw [commaSeparated_append]
    apply ((halts true).append _).after (through.commaSeparated.append separator)
    rw [faultsIn_append, faultsIn_commaSeparated, noted]
    exact List.append_nil _

end Halts

/-- Wherever a production is due, the value leads to the tag. -/
def HaltedBy (value : Value) (before : List Note) (tag : Content) : Prop :=
  ∀ focus place separated, Awaits focus place → Halts focus separated value.marks before tag

theorem haltedBy_unknown {tag : Content} (unknown : tag ∉ tags) (payload : Value) :
    HaltedBy (.object [(tag, payload)]) [] tag := by
  intro focus place separated awaits
  refine ⟨unknown, [.opening .object], .colon :: (payload.marks ++ [.closing .object]), place, ?_, rfl, ?_⟩
  · simp [Value.marks, memberMarks, commaSeparated]
  · exact .value rfl (awaits _) .refl

section Payloads
variable {kind : Production.Kind} {scalars past later : List (Content × Value)} {before : List Note}
  {tag : Content}

theorem haltedBy_tagged {payload : Value}
    (inside : ∀ place, Halts (.payload kind place) true payload.marks before tag) :
    HaltedBy (.object [(kind.tag, payload)]) before tag := by
  intro focus place separated awaits
  have marks : (Value.object [(kind.tag, payload)]).marks =
      [.opening .object, .text kind.tag, .colon] ++ (payload.marks ++ [.closing .object]) := by
    simp [Value.marks, memberMarks, commaSeparated]
  rw [marks]
  exact ((inside place).append _).afterSymbols (leads_payload awaits separated kind) rfl

/-- A payload object of the tag with some of its scalars. -/
inductive Wraps : Production.Kind → Wrapper → Prop where
  | opt (probability : Option Binary64) : Wraps .opt (.opt probability)
  | cond (flag : Option String) (inverted : Option Bool) : Wraps .cond (.cond flag inverted)
  | span (label : Option String) : Wraps .span (.span label)

theorem Wraps.field?_tag {wrapper : Wrapper} (wraps : Wraps kind wrapper) :
    wrapper.field? kind.tag = some .child := by
  cases wraps <;> rfl

theorem opened_beside (beside : Beside kind scalars) : ∃ wrapper, Wraps kind wrapper ∧
    ∀ place, Focus.enterPayload kind place (.opening .object) = .ok (.fields ⟨wrapper, none⟩ true place) := by
  cases beside with
  | opt numeral => exact ⟨_, .opt none, fun _ => rfl⟩
  | cond flag inverted => exact ⟨_, .cond none none, fun _ => rfl⟩
  | span label => exact ⟨_, .span none, fun _ => rfl⟩

theorem fills_beside (beside : Beside kind scalars) {field : Content × Value} (member : field ∈ scalars)
    {wrapper : Wrapper} (wraps : Wraps kind wrapper) :
    ∃ next, Wraps kind next ∧ Fills ⟨wrapper, none⟩ field ⟨next, none⟩ := by
  cases beside with
  | opt numeral =>
    cases wraps with
    | opt known =>
      cases List.mem_singleton.mp member
      exact ⟨_, .opt _, fills_probability known numeral⟩
  | span label =>
    cases wraps with
    | span known =>
      cases List.mem_singleton.mp member
      exact ⟨_, .span _, fills_label known label⟩
  | cond flag inverted =>
    cases wraps with
    | cond known truth =>
      simp only [List.mem_cons, List.not_mem_nil, or_false] at member
      rcases member with rfl | rfl
      · exact ⟨_, .cond _ _, fills_flag known truth flag⟩
      · exact ⟨_, .cond _ _, fills_inverted known truth inverted⟩

/-- The scalars are filled in whatever order they come. -/
theorem fillsAll_beside (beside : Beside kind scalars) {fields : List (Content × Value)}
    (some : fields ⊆ scalars) {wrapper : Wrapper} (wraps : Wraps kind wrapper) :
    ∃ next, Wraps kind next ∧ FillsAll ⟨wrapper, none⟩ fields ⟨next, none⟩ := by
  induction fields generalizing wrapper with
  | nil => exact ⟨wrapper, wraps, .nil⟩
  | cons field fields ih =>
    obtain ⟨here, there⟩ := List.cons_subset.mp some
    obtain ⟨middle, wraps, first⟩ := fills_beside beside here wraps
    obtain ⟨last, wraps, rest⟩ := ih there wraps
    exact ⟨last, wraps, .cons first rest⟩

theorem haltedBy_wrapped (beside : Beside kind scalars) (order : (past ++ later).Perm scalars)
    {inner : Value} (halted : HaltedBy inner before tag) :
    HaltedBy (.object [(kind.tag, .object (past ++ (.whole kind.tag, inner) :: later))])
      (fieldNotes past ++ before) tag := by
  have early : past ⊆ scalars := List.Subset.trans (List.subset_append_left _ _) order.subset
  obtain ⟨wrapper, wraps, opened⟩ := opened_beside beside
  obtain ⟨next, wraps, filled⟩ := fillsAll_beside beside early wraps
  refine haltedBy_tagged fun place => ?_
  have child (separated : Bool) : Halts (.fields ⟨next, none⟩ true place) separated
      ([.text kind.tag, .colon] ++ inner.marks) before tag :=
    (halted (.production (.child next true place)) _ true fun _ => rfl).afterSymbols
      (leads_child wraps.field?_tag separated place) rfl
  have fields : Halts (.fields ⟨wrapper, none⟩ true place) false
      (commaSeparated (memberMarks (past ++ (.whole kind.tag, inner) :: later)))
      (fieldNotes past ++ before) tag := by
    rw [memberMarks_eq_map, List.map_append, List.map_cons, ← memberMarks_eq_map]
    refine (filled.leadsThrough place).halts rfl ?_ child
    rw [Value.faults_memberMarks, faults_fields beside early]
  rw [Value.marks, ← List.singleton_append]
  exact (fields.append _).afterSymbols (leads_draft opened place) rfl

end Payloads

/-- One of the values leads to the tag, and those before it are read. -/
def HaltedAmong (values : List Value) (before : List Note) (tag : Content) : Prop :=
  ∃ past value later notes behind, values = past ++ value :: later ∧ before = notes ++ behind ∧
    ShapedAll past notes ∧ HaltedBy value behind tag

theorem HaltedAmong.cons {value : Value} {values : List Value} {notes before : List Note} {tag : Content}
    (first : Shaped value notes) (halted : HaltedAmong values before tag) :
    HaltedAmong (value :: values) (notes ++ before) tag := by
  obtain ⟨past, other, later, more, behind, rfl, rfl, shaped, halted⟩ := halted
  refine ⟨value :: past, other, later, notes ++ more, behind, rfl, ?_, .cons first shaped, halted⟩
  rw [List.append_assoc]

/-- A list of nodes as the payload of its tag. -/
theorem HaltedAmong.items {items : List Value} {before : List Note} {tag : Content}
    (halted : HaltedAmong items before tag) (known : ∀ other, .unknownTag other ∉ before)
    (container : Container) (place : Place) :
    Halts (.items container [] place) false (commaSeparated (itemMarks items)) before tag := by
  obtain ⟨past, value, later, notes, behind, rfl, rfl, shaped, halted⟩ := halted
  have pastKnown : ∀ other, .unknownTag other ∉ notes := known_front known
  obtain ⟨results, read⟩ := shaped.readAs pastKnown
  rw [itemMarks_eq_map, List.map_append, List.map_cons, ← itemMarks_eq_map]
  refine (leadsThrough_items read container [] place).halts rfl ?_ fun separated => ?_
  · rw [Value.faults_itemMarks, shaped.faults pastKnown]
  · exact halted _ (.item container _ place) separated fun _ => rfl

section Tagged
variable {items : List Value} {before : List Note} {tag : Content}

private theorem halts_list {container : Container} {kind : Production.Kind} {place : Place}
    (opened : Focus.enterPayload kind place (.opening .list) = .ok (.items container [] place))
    (halts : Halts (.items container [] place) false (commaSeparated (itemMarks items)) before tag) :
    Halts (.payload kind place) true (Value.list items).marks before tag := by
  have entered : (Focus.payload kind place).advance (.opening .list) =
      .ok (.reading (.items container [] place)) := by
    simp only [Focus.advance, opened, Except.map]
  have leads : Leads (.payload kind place) true [.opening .list] (.items container [] place) false :=
    .value rfl entered .refl
  rw [Value.marks, ← List.singleton_append]
  exact (halts.append _).afterSymbols leads rfl

theorem haltedBy_seq (halted : HaltedAmong items before tag) (known : ∀ other, .unknownTag other ∉ before) :
    HaltedBy (.object [("seq", .list items)]) before tag :=
  @haltedBy_tagged .seq _ _ _ fun place => halts_list rfl (halted.items known .seq place)

theorem haltedBy_alt (halted : HaltedAmong items before tag) (known : ∀ other, .unknownTag other ∉ before) :
    HaltedBy (.object [("alt", .list items)]) before tag :=
  @haltedBy_tagged .alt _ _ _ fun place => halts_list rfl (halted.items known .alt place)

end Tagged

section First
variable {notes more before after : List Note} {tag : Content}

private theorem before_of_append (split : notes ++ more = before ++ .unknownTag tag :: after) :
    (∃ rest, before = notes ++ rest ∧ more = rest ++ .unknownTag tag :: after) ∨
      ∃ rest, notes = before ++ .unknownTag tag :: rest := by
  rcases List.append_eq_append_iff.mp split with ⟨rest, same, behind⟩ | ⟨rest, same, behind⟩
  · exact .inl ⟨rest, same, behind⟩
  · cases rest with
    | nil => exact .inl ⟨[], by rw [same, List.append_nil, List.append_nil], behind.symm⟩
    | cons note rest =>
      cases behind
      exact .inr ⟨rest, same⟩

private theorem not_among_fields {fields : List (Content × Value)}
    (split : fieldNotes fields = before ++ .unknownTag tag :: after) : False := by
  apply fieldNotes_known fields tag
  rw [split]
  exact List.mem_append_right _ List.mem_cons_self

/-- The first unknown tag in a payload object stands in its child. -/
private theorem before_of_fields {past later : List (Content × Value)}
    (split : fieldNotes past ++ (notes ++ fieldNotes later) = before ++ .unknownTag tag :: after) :
    ∃ rest back, before = fieldNotes past ++ rest ∧ notes = rest ++ .unknownTag tag :: back := by
  rcases before_of_append split with ⟨rest, rfl, inside⟩ | ⟨_, early⟩
  · rcases before_of_append inside with ⟨_, _, late⟩ | ⟨back, inside⟩
    · exact (not_among_fields late).elim
    · exact ⟨rest, back, rfl, inside⟩
  · exact (not_among_fields early).elim

theorem before_of_text {content : Content}
    (split : .text content :: notes = before ++ .unknownTag tag :: after) :
    ∃ rest, before = .text content :: rest ∧ notes = rest ++ .unknownTag tag :: after := by
  cases before with
  | nil => cases split
  | cons note rest =>
    cases split
    exact ⟨rest, rfl, rfl⟩

end First

mutual
/-- Reading comes to the first unknown tag that is noted. -/
theorem Shaped.haltedBy {value : Value} {notes before after : List Note} {tag : Content}
    (shaped : Shaped value notes) (split : notes = before ++ .unknownTag tag :: after)
    (known : ∀ other, .unknownTag other ∉ before) : HaltedBy value before tag :=
  match shaped with
  | .lit _ | .ref _ => by
    obtain ⟨rest, _, nothing⟩ := before_of_text split
    simp at nothing
  | .seq each => haltedBy_seq (each.haltedAmong split known) known
  | .alt each => haltedBy_alt (each.haltedAmong split known) known
  | .wrapped beside order below => by
    obtain ⟨rest, back, rfl, inside⟩ := before_of_fields split
    apply haltedBy_wrapped beside order
    exact below.haltedBy inside (known_back known)
  | .unknown unknown => by
    cases before with
    | nil =>
      cases split
      exact haltedBy_unknown unknown _
    | cons note rest => simp at split
termination_by structural shaped

theorem ShapedAll.haltedAmong {values : List Value} {notes before after : List Note} {tag : Content}
    (shaped : ShapedAll values notes) (split : notes = before ++ .unknownTag tag :: after)
    (known : ∀ other, .unknownTag other ∉ before) : HaltedAmong values before tag :=
  match shaped with
  | .nil => by simp at split
  | @ShapedAll.cons value values _ _ first rest => by
    rcases before_of_append split with ⟨behind, rfl, inside⟩ | ⟨behind, inside⟩
    · apply HaltedAmong.cons first
      exact rest.haltedAmong inside (known_back known)
    · exact ⟨[], value, values, [], before, rfl, rfl, .nil, first.haltedBy inside known⟩
termination_by structural shaped
end

namespace ShapedRules
variable {members : List (Content × Value)} {notes before after : List Note} {tag : Content}

theorem faults (shaped : ShapedRules members notes) (known : ∀ tag, .unknownTag tag ∉ notes) :
    (Value.object members).faults = faultsIn (notes.map Note.mark) := by
  rw [Value.faults_object]
  induction shaped with
  | nil => rfl
  | cons first rest ih =>
    have here := first.faults (known_front (known_behind known))
    have there := ih (known_back (known_behind known))
    simp [here, there, Note.mark, Mark.fault?]

theorem leadsThrough (shaped : ShapedRules members notes) (known : ∀ tag, .unknownTag tag ∉ notes)
    (done : RuleSet) : ∃ next, LeadsThrough (.rules done) (memberMarks members) (.rules next) := by
  induction shaped generalizing done with
  | nil => exact ⟨done, .nil⟩
  | @cons name value members notes more first rest ih =>
    obtain ⟨result, read⟩ := first.readAs (known_front (known_behind known))
    obtain ⟨next, through⟩ := ih (known_back (known_behind known)) (done.insert name.text result)
    exact ⟨next, .cons rfl (leads_rule read done name) through⟩

/-- The body of one of the rules leads to the first unknown tag. -/
theorem halted (shaped : ShapedRules members notes) (split : notes = before ++ .unknownTag tag :: after)
    (known : ∀ other, .unknownTag other ∉ before) :
    ∃ past name body later earlier behind, members = past ++ (name, body) :: later ∧
      before = earlier ++ .text name :: behind ∧ ShapedRules past earlier ∧ HaltedBy body behind tag := by
  induction shaped generalizing before with
  | nil => simp at split
  | @cons name value members notes more first rest ih =>
    obtain ⟨beyond, rfl, bodies⟩ := before_of_text split
    rcases before_of_append bodies with ⟨behind, rfl, inside⟩ | ⟨_, inside⟩
    · obtain ⟨past, other, body, later, earlier, behind, rfl, rfl, shaped, halted⟩ :=
        ih inside (known_back (known_behind known))
      refine ⟨(name, value) :: past, other, body, later, .text name :: (notes ++ earlier), behind, rfl,
        ?_, .cons first shaped, halted⟩
      rw [List.cons_append, List.append_assoc]
    · exact ⟨[], name, value, members, [], beyond, rfl, rfl, .nil,
        first.haltedBy inside (known_behind known)⟩

theorem halts (shaped : ShapedRules members notes) (split : notes = before ++ .unknownTag tag :: after)
    (known : ∀ other, .unknownTag other ∉ before) :
    Halts .document false (Value.object members).marks before tag := by
  obtain ⟨past, name, body, later, earlier, behind, rfl, rfl, pastShaped, halted⟩ :=
    shaped.halted split known
  have pastKnown : ∀ other, .unknownTag other ∉ earlier := known_front known
  obtain ⟨done, through⟩ := pastShaped.leadsThrough pastKnown .empty
  have rule (separated : Bool) : Halts (.rules done) separated
      ([.text name, .colon] ++ body.marks) (.text name :: behind) tag :=
    @Halts.after _ _ _ _ _ _ [.text name] _ _
      (halted (.production (.body done name.text)) _ true fun _ => rfl)
      (leads_ruleName done name separated) rfl
  have rules : Halts (.rules .empty) false
      (commaSeparated (memberMarks (past ++ (name, body) :: later))) (earlier ++ .text name :: behind)
      tag := by
    rw [memberMarks_eq_map, List.map_append, List.map_cons, ← memberMarks_eq_map]
    refine through.halts rfl ?_ rule
    rw [Value.faults_memberMarks, ← Value.faults_object, pastShaped.faults pastKnown]
  have opened : Leads .document false [.opening .object] (.rules .empty) false := .value rfl rfl .refl
  rw [Value.marks, ← List.singleton_append]
  exact (rules.append _).afterSymbols opened rfl

end ShapedRules

end PracticeGrammar.Compiled
