import PracticeGrammar.Proofs.CompiledReading

/-! Values in the shapes of the compiled format, but for tags that are not known. What may keep such a
value from being read is noted in the order of the text. Where all tags are known, the value is read
like any other, and the faults of its text are those of what is noted. -/

namespace PracticeGrammar.Compiled
open Json

/-- What may keep a value in the right shapes from being read. -/
inductive Note where
  | number (numeral : Numeral)
  | text (content : Content)
  | unknownTag (tag : Content)

def Note.mark : Note → Mark
  | .number numeral => .number numeral
  | .text content | .unknownTag content => .text content

def tags : List Content := ["lit", "seq", "alt", "opt", "ref", "cond", "span"]

/-- The fields that stand beside the child in the payload of a tag, in one of their orders. -/
inductive Beside : Production.Kind → List (Content × Value) → Prop where
  | opt (numeral : Numeral) : Beside .opt [("f", .number numeral)]
  | cond (flag : Content) (inverted : Bool) :
      Beside .cond [("flag", .text flag), ("inv", .truth inverted)]
  | span (label : Content) : Beside .span [("class", .text label)]

def fieldNotes (fields : List (Content × Value)) : List Note :=
  fields.flatMap fun field => match field.2 with
    | .number numeral => [.number numeral]
    | .text content => [.text content]
    | _ => []

mutual
/-- A node in the shape of its tag, or with any payload if the tag is unknown. The notes stand in
the order of the text. -/
inductive Shaped : Value → List Note → Prop where
  | lit (content : Content) : Shaped (.object [("lit", .text content)]) [.text content]
  | ref (name : Content) : Shaped (.object [("ref", .text name)]) [.text name]
  | seq {items notes} (each : ShapedAll items notes) : Shaped (.object [("seq", .list items)]) notes
  | alt {items notes} (each : ShapedAll items notes) : Shaped (.object [("alt", .list items)]) notes
  /-- The child of an `opt`, a `cond` or a `span` stands under the tag once more. -/
  | wrapped {kind scalars inner notes} {past later : List (Content × Value)}
      (beside : Beside kind scalars) (order : (past ++ later).Perm scalars) (below : Shaped inner notes) :
      Shaped (.object [(kind.tag, .object (past ++ (.whole kind.tag, inner) :: later))])
        (fieldNotes past ++ (notes ++ fieldNotes later))
  | unknown {tag payload} (unknown : tag ∉ tags) : Shaped (.object [(tag, payload)]) [.unknownTag tag]

inductive ShapedAll : List Value → List Note → Prop where
  | nil : ShapedAll [] []
  | cons {value values notes more} (first : Shaped value notes) (rest : ShapedAll values more) :
      ShapedAll (value :: values) (notes ++ more)
end

/-- The rules of an object, whose names are noted too. -/
inductive ShapedRules : List (Content × Value) → List Note → Prop where
  | nil : ShapedRules [] []
  | cons {name value members notes more} (first : Shaped value notes) (rest : ShapedRules members more) :
      ShapedRules ((name, value) :: members) (.text name :: (notes ++ more))

section Known
variable {note : Note} {notes more : List Note}

theorem known_front (known : ∀ tag, .unknownTag tag ∉ notes ++ more) (tag : Content) :
    .unknownTag tag ∉ notes :=
  fun member => known tag (List.mem_append_left _ member)

theorem known_back (known : ∀ tag, .unknownTag tag ∉ notes ++ more) (tag : Content) :
    .unknownTag tag ∉ more :=
  fun member => known tag (List.mem_append_right _ member)

theorem known_behind (known : ∀ tag, .unknownTag tag ∉ note :: notes) (tag : Content) :
    .unknownTag tag ∉ notes :=
  fun member => known tag (List.mem_cons_of_mem _ member)

end Known

theorem ofTag?_eq_none {tag : String} (unknown : .whole tag ∉ tags) :
    Production.Kind.ofTag? tag = none := by
  by_contra known
  obtain ⟨kind, found⟩ := Option.ne_none_iff_exists'.mp known
  apply unknown
  rw [← Production.Kind.ofTag?_eq_some_iff.mp found]
  cases kind <;> decide

section Fields
variable {kind : Production.Kind} {scalars past later : List (Content × Value)}

theorem fieldNotes_known (fields : List (Content × Value)) (tag : Content) :
    .unknownTag tag ∉ fieldNotes fields := by
  intro member
  obtain ⟨field, _, noted⟩ := List.mem_flatMap.mp member
  split at noted <;> simp at noted

/-- The faults in fields beside a child are those of their values. -/
theorem faults_fields (beside : Beside kind scalars) {fields : List (Content × Value)}
    (some : fields ⊆ scalars) :
    fields.flatMap (fun member => member.1.fault?.toList ++ member.2.faults) =
      faultsIn ((fieldNotes fields).map Note.mark) := by
  induction fields with
  | nil => rfl
  | cons field fields ih =>
    obtain ⟨here, there⟩ := List.cons_subset.mp some
    have first : field.1.fault?.toList ++ field.2.faults = faultsIn ((fieldNotes [field]).map Note.mark) := by
      cases beside with
      | opt numeral | span label =>
        cases List.mem_singleton.mp here
        simp [fieldNotes, Note.mark, Mark.fault?]
      | cond flag inverted =>
        simp only [List.mem_cons, List.not_mem_nil, or_false] at here
        rcases here with rfl | rfl <;> simp [fieldNotes, Note.mark, Mark.fault?]
    have split : fieldNotes (field :: fields) = fieldNotes [field] ++ fieldNotes fields := by
      simp [fieldNotes]
    rw [List.flatMap_cons, first, ih there, split, List.map_append, faultsIn_append]

end Fields

mutual
theorem Shaped.faults {value : Value} {notes : List Note} (shaped : Shaped value notes)
    (known : ∀ tag, .unknownTag tag ∉ notes) : value.faults = faultsIn (notes.map Note.mark) :=
  match shaped with
  | .lit content | .ref content => by simp [Note.mark, Mark.fault?]
  | .seq each | .alt each => by
    have inside := each.faults known
    simpa using inside
  | .wrapped beside order below => by
    have inside := below.faults (known_front (known_back known))
    have front := faults_fields beside (List.Subset.trans (List.subset_append_left _ _) order.subset)
    have back := faults_fields beside (List.Subset.trans (List.subset_append_right _ _) order.subset)
    simp [front, back, inside]
  | .unknown _ => absurd List.mem_cons_self (known _)
termination_by structural shaped

theorem ShapedAll.faults {values : List Value} {notes : List Note} (shaped : ShapedAll values notes)
    (known : ∀ tag, .unknownTag tag ∉ notes) :
    values.flatMap Value.faults = faultsIn (notes.map Note.mark) :=
  match shaped with
  | .nil => rfl
  | .cons first rest => by
    have here := first.faults (known_front known)
    have there := rest.faults (known_back known)
    rw [List.flatMap_cons, here, there, List.map_append, faultsIn_append]
termination_by structural shaped
end

mutual
theorem Shaped.readAs {value : Value} {notes : List Note} (shaped : Shaped value notes)
    (known : ∀ tag, .unknownTag tag ∉ notes) : ∃ result, ReadAs value result :=
  match shaped with
  | .lit content => ⟨_, readAs_lit content⟩
  | .ref name => ⟨_, readAs_ref name⟩
  | .seq each => by
    obtain ⟨results, read⟩ := each.readAs known
    exact ⟨_, readAs_seq read⟩
  | .alt each => by
    obtain ⟨results, read⟩ := each.readAs known
    exact ⟨_, readAs_alt read⟩
  | @Shaped.wrapped kind scalars inner _ past later beside order below => by
    obtain ⟨result, read⟩ := below.readAs (known_front (known_back known))
    have fields : (past ++ (.whole kind.tag, inner) :: later).Perm
        (scalars ++ [(.whole kind.tag, inner)]) :=
      List.perm_middle.trans ((order.cons _).trans (List.perm_append_singleton _ _).symm)
    cases beside with
    | opt numeral => exact ⟨_, readAs_opt fields read⟩
    | cond flag inverted => exact ⟨_, readAs_cond fields read⟩
    | span label => exact ⟨_, readAs_span fields read⟩
  | .unknown _ => absurd List.mem_cons_self (known _)
termination_by structural shaped

theorem ShapedAll.readAs {values : List Value} {notes : List Note} (shaped : ShapedAll values notes)
    (known : ∀ tag, .unknownTag tag ∉ notes) : ∃ results, List.Forall₂ ReadAs values results :=
  match shaped with
  | .nil => ⟨[], .nil⟩
  | .cons first rest => by
    obtain ⟨result, read⟩ := first.readAs (known_front known)
    obtain ⟨results, more⟩ := rest.readAs (known_back known)
    exact ⟨result :: results, .cons read more⟩
termination_by structural shaped
end

end PracticeGrammar.Compiled
