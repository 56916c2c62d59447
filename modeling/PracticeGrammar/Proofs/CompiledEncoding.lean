import PracticeGrammar.Proofs.JsonScanning
import PracticeGrammar.Proofs.ProductionNodes

/-! The compiled format from the side of its writer: which JSON values write a production or a rule
set. Rules and the fields of payload objects may come in any order, and a probability may be any
numeral that rounds to it. -/

namespace PracticeGrammar
open Json

/-- The number is the nearest one to what the numeral denotes, and the numeral is no integer of
more than 128 bits. -/
def Numeral.RoundsTo (numeral : Numeral) (number : Binary64) : Prop :=
  Binary64.IsNearest numeral.exactValue number ∧ numeral.InRange

private theorem exists_of_mem_right {α β : Type} {relation : α → β → Prop} {lefts : List α}
    {rights : List β} (each : List.Forall₂ relation lefts rights) {right : β} (member : right ∈ rights) :
    ∃ left ∈ lefts, relation left right := by
  induction each with
  | nil => cases member
  | cons first _ ih =>
    rcases List.mem_cons.mp member with rfl | member
    · exact ⟨_, List.mem_cons_self, first⟩
    · obtain ⟨left, present, related⟩ := ih member
      exact ⟨left, List.mem_cons_of_mem _ present, related⟩

namespace Production

mutual
def EncodedAs : Production → Value → Prop
  | .lit text, value => value = .object [("lit", .text text)]
  | .ref name, value => value = .object [("ref", .text name)]
  | .seq children, value =>
    ∃ items, value = .object [("seq", .list items)] ∧ AllEncodedAs children items
  | .alt children, value =>
    ∃ items, value = .object [("alt", .list items)] ∧ AllEncodedAs children items
  | .opt probability child, value =>
    ∃ fields numeral inner, value = .object [("opt", .object fields)] ∧
      fields.Perm [("f", .number numeral), ("opt", inner)] ∧
      numeral.RoundsTo probability ∧ EncodedAs child inner
  | .cond flag inverted child, value =>
    ∃ fields inner, value = .object [("cond", .object fields)] ∧
      fields.Perm [("flag", .text flag), ("inv", .truth inverted), ("cond", inner)] ∧
      EncodedAs child inner
  | .span label child, value =>
    ∃ fields inner, value = .object [("span", .object fields)] ∧
      fields.Perm [("class", .text label), ("span", inner)] ∧ EncodedAs child inner

def AllEncodedAs : List Production → List Value → Prop
  | [], [] => True
  | first :: rest, value :: values => EncodedAs first value ∧ AllEncodedAs rest values
  | _, _ => False
end

theorem allEncodedAs_iff {children : List Production} {values : List Value} :
    AllEncodedAs children values ↔ List.Forall₂ EncodedAs children values := by
  induction children generalizing values with
  | nil => cases values <;> simp [AllEncodedAs]
  | cons first rest ih => cases values <;> simp [AllEncodedAs, ih]

/-- Only probabilities are numbers, and these are in range. -/
theorem faults_of_encodedAs {production : Production} {value : Value}
    (encoded : production.EncodedAs value) : value.faults = [] := by
  induction production using childInduction generalizing value with
  | step production ih =>
    cases production with
    | lit text | ref name =>
      rw [EncodedAs] at encoded
      simp [encoded]
    | seq children | alt children =>
      obtain ⟨items, rfl, all⟩ := encoded
      have each := allEncodedAs_iff.mp all
      have inside : ∀ item ∈ items, item.faults = [] := by
        intro item member
        obtain ⟨child, below, written⟩ := exists_of_mem_right each member
        exact ih child below written
      simpa using inside
    | opt probability child =>
      obtain ⟨fields, numeral, inner, rfl, order, rounded, written⟩ := encoded
      have inside := ih child List.mem_cons_self written
      simp [order.mem_iff, rounded.2, inside, Mark.fault?]
    | cond flag inverted child =>
      obtain ⟨fields, inner, rfl, order, written⟩ := encoded
      have inside := ih child List.mem_cons_self written
      simp [order.mem_iff, inside]
    | span label child =>
      obtain ⟨fields, inner, rfl, order, written⟩ := encoded
      have inside := ih child List.mem_cons_self written
      simp [order.mem_iff, inside]

end Production

def RuleSet.EncodedAs (rules : RuleSet) (value : Value) : Prop :=
  ∃ order members, value = .object members ∧ order.Perm rules.entries ∧
    List.Forall₂ (fun rule member => member.1 = .whole rule.1 ∧ rule.2.EncodedAs member.2) order members

theorem RuleSet.faults_of_encodedAs {rules : RuleSet} {value : Value}
    (encoded : rules.EncodedAs value) : value.faults = [] := by
  obtain ⟨order, members, rfl, _, each⟩ := encoded
  rw [Value.faults_object, List.flatMap_eq_nil_iff]
  intro member present
  obtain ⟨rule, _, name, written⟩ := exists_of_mem_right each present
  rw [name, Production.faults_of_encodedAs written]
  rfl

end PracticeGrammar
