import PracticeGrammar.Proofs.Acceptance
import PracticeGrammar.Proofs.EqualityLaws
import PracticeGrammar.Proofs.FailureOffsets
import PracticeGrammar.Proofs.FirstViolation
import PracticeGrammar.Proofs.NumberSpellings

/-! Where the probabilities of a rule set come from. Each is read from a scalar of the text that
stands in the place of a probability. So a NaN is one that the text spells out, and nothing else can
be out of range but what lies below zero or above one. -/

namespace PracticeGrammar
open Json

namespace Binary64

/-- Less in the sense of the order of numbers: a NaN is less than nothing, and nothing is less
than it. -/
def less (left right : Binary64) : Bool := left.atMost right && !left.equal right

theorem less_iff {left right : Binary64} : left.less right = true ↔
    left.isNaN = false ∧ right.isNaN = false ∧ left.value < right.value := by
  rw [less, Bool.and_eq_true, Bool.not_eq_true', ← Bool.not_eq_true, atMost_iff, equal_iff_value,
    lt_iff_le_and_ne]
  tauto

theorem out_of_range_iff {number : Binary64} : number.isProbability = false ↔
    number.less zero = true ∨ one.less number = true ∨ number.isNaN = true := by
  have first : zero.isNaN = false := by decide
  have last : one.isNaN = false := by decide
  rw [← Bool.not_eq_true, isProbability, Bool.and_eq_true, atMost_iff, atMost_iff, less_iff, less_iff]
  cases unknown : number.isNaN with
  | false =>
    simp only [first, last, true_and, Bool.false_eq_true, or_false, not_and_or, not_le]
  | true => simp only [Bool.true_eq_false, false_and, and_false, not_false_eq_true, or_true]

end Binary64

namespace Production

def probability? : Production → Option Binary64
  | .opt probability _ => some probability
  | _ => none

/-- The probabilities of all optionals, in reading order. -/
def probabilities (production : Production) : List Binary64 := production.nodes.filterMap probability?

theorem probabilities_eq (production : Production) :
    production.probabilities =
      production.probability?.toList ++ production.children.flatMap probabilities :=
  filterMap_nodes probability? production

theorem probability?_eq_some_iff {production : Production} {probability : Binary64} :
    production.probability? = some probability ↔ ∃ child, production = .opt probability child := by
  cases production <;> simp [probability?, eq_comm]

theorem mem_probabilities_iff {production : Production} {probability : Binary64} :
    probability ∈ production.probabilities ↔ ∃ child, .opt probability child ∈ production.nodes := by
  simp only [probabilities, List.mem_filterMap, probability?_eq_some_iff]
  constructor
  · rintro ⟨_, inside, child, rfl⟩
    exact ⟨child, inside⟩
  · rintro ⟨child, inside⟩
    exact ⟨_, inside, child, rfl⟩

end Production

namespace RuleSet

def probabilities (rules : RuleSet) : List Binary64 := rules.entries.flatMap (·.2.probabilities)

theorem mem_probabilities_iff {rules : RuleSet} {probability : Binary64} :
    probability ∈ rules.probabilities ↔ ∃ child, rules.Holds (.opt probability child) := by
  simp only [probabilities, List.mem_flatMap, Production.mem_probabilities_iff, Holds]
  tauto

theorem mem_probabilities_insert {rules : RuleSet} {name : String} {body : Production}
    {probability : Binary64} (member : probability ∈ probabilities (rules.insert name body)) :
    probability ∈ body.probabilities ∨ probability ∈ rules.probabilities := by
  obtain ⟨rule, present, inside⟩ := List.mem_flatMap.mp member
  rcases Entries.name_of_mem_insert present with rfl | present
  · exact .inl inside
  · exact .inr (List.mem_flatMap.mpr ⟨rule, present, inside⟩)

end RuleSet

def Json.Token.string? : Token → Option String
  | .scalar (.string text) => some text
  | _ => none

namespace Compiled

def Wrapper.probabilities : Wrapper → List Binary64
  | .opt probability => probability.toList
  | .cond _ _ | .span _ => []

def Draft.probabilities (draft : Draft) : List Binary64 :=
  draft.wrapper.probabilities ++ draft.child.toList.flatMap Production.probabilities

/-- The probabilities in what is read around a place. -/
def Place.probabilities : Place → List Binary64
  | .body done _ => RuleSet.probabilities done
  | .item _ before outer => before.flatMap Production.probabilities ++ outer.probabilities
  | .child wrapper _ outer => wrapper.probabilities ++ outer.probabilities

/-- The probabilities in all that is read so far and may still become part of the rule set. -/
def Focus.probabilities : Focus → List Binary64
  | .document => []
  | .rules done => RuleSet.probabilities done
  | .production place => place.probabilities
  | .items _ before outer => before.flatMap Production.probabilities ++ outer.probabilities
  | .tag outer | .payload _ outer => outer.probabilities
  | .closing finished outer => finished.probabilities ++ outer.probabilities
  | .fields draft _ outer => draft.probabilities ++ outer.probabilities
  | .field _ child _ outer => child.toList.flatMap Production.probabilities ++ outer.probabilities

section Steps
variable {focus next : Focus} {number : Binary64}

theorem probabilities_build (container : Container) (children : List Production) :
    (container.build children).probabilities = children.flatMap Production.probabilities := by
  rw [Production.probabilities_eq]
  cases container <;> rfl

theorem Whole.probabilities_eq {draft : Draft} {production : Production} (whole : Whole draft production) :
    production.probabilities = draft.probabilities := by
  rw [Production.probabilities_eq]
  cases whole <;> rfl

private theorem mem_deliver {finished : Production} {outer : Place}
    (member : number ∈ (Focus.deliver finished outer).probabilities) :
    number ∈ finished.probabilities ++ outer.probabilities := by
  cases outer with
  | body done name => exact List.mem_append.mpr (RuleSet.mem_probabilities_insert member)
  | item container before outer =>
    rw [Focus.deliver, Focus.probabilities, List.flatMap_cons, List.append_assoc] at member
    exact member
  | child wrapper inside outer =>
    simp only [Focus.deliver, Focus.probabilities, Draft.probabilities, Option.toList_some,
      List.flatMap_singleton, Place.probabilities, List.mem_append] at member ⊢
    tauto

private theorem mem_close {bracket : Bracket} (close : Close focus bracket (.reading next))
    (member : number ∈ next.probabilities) : number ∈ focus.probabilities := by
  cases close with
  | list =>
    simpa [Focus.probabilities, probabilities_build] using member
  | production => exact mem_deliver member
  | payload => exact member
  | wrapped whole =>
    have inside := mem_deliver member
    rw [whole.probabilities_eq] at inside
    exact inside

/-- The probability of an optional is what is read next. -/
def Focus.AwaitsProbability : Focus → Prop
  | .field .probability _ _ _ => True
  | _ => False

private theorem mem_advance {head : Head} (advance : Advance focus head (.reading next))
    (member : number ∈ next.probabilities) :
    number ∈ focus.probabilities ∨
      focus.AwaitsProbability ∧ ∃ scalar, head = .scalar scalar ∧ LenientNumber scalar number := by
  cases advance with
  | document => cases member
  | rule _ | production | item | tag _ => exact .inl member
  | lit _ | ref _ | list _ => exact .inl member
  | none container =>
    rw [Focus.probabilities, probabilities_build] at member
    exact .inl member
  | draft bare =>
    simp only [Wrapper.bare, List.mem_cons, List.not_mem_nil, or_false] at bare
    rcases bare with rfl | rfl | rfl <;> exact .inl member
  | child =>
    simp only [Focus.probabilities, Draft.probabilities, Place.probabilities, List.mem_append] at member ⊢
    tauto
  | field known =>
    simp only [Focus.probabilities, Draft.probabilities, List.mem_append] at member ⊢
    tauto
  | probability read =>
    rw [Focus.probabilities, Draft.probabilities, List.append_assoc] at member
    rcases List.mem_append.mp member with here | below
    · cases List.mem_singleton.mp here
      exact .inr ⟨trivial, _, rfl, read⟩
    · exact .inl below
  | flag _ | inverted _ | label _ => exact .inl member

/-- One token brings no probability but the one that it is read as. -/
theorem mem_step {stage target : Stage} {token : Token} (step : Step stage token target)
    (member : number ∈ target.focus.probabilities) :
    number ∈ stage.focus.probabilities ∨ stage.skipping = none ∧ stage.focus.AwaitsProbability ∧
      ∃ scalar, token = .scalar scalar ∧ LenientNumber scalar number := by
  cases step with
  | close close => exact .inl (mem_close close member)
  | value advance =>
    rcases mem_advance advance member with before | ⟨awaited, scalar, rfl, read⟩
    · exact .inl before
    · exact .inr ⟨rfl, awaited, scalar, rfl, read⟩
  | unknown advance =>
    cases advance
    exact .inl member
  | separator _ | colon | scalar _ | opening | closing | closed | inside _ => exact .inl member

/-- The probabilities behind a reading are those before it and those read on the way. -/
theorem mem_steps {first last : Stage} {tokens : List Token} (steps : Steps first tokens last)
    (member : number ∈ last.focus.probabilities) :
    number ∈ first.focus.probabilities ∨ ∃ front scalar rest stage,
      tokens = front ++ .scalar scalar :: rest ∧ Steps first front stage ∧
        stage.skipping = none ∧ stage.focus.AwaitsProbability ∧ LenientNumber scalar number := by
  induction steps with
  | refl => exact .inl member
  | @head first middle last token tokens step _ ih =>
    rcases ih member with before | ⟨front, scalar, rest, stage, rfl, steps, found⟩
    · rcases mem_step step before with before | ⟨reading, awaited, scalar, rfl, read⟩
      · exact .inl before
      · exact .inr ⟨[], scalar, tokens, first, rfl, .refl, reading, awaited, read⟩
    · exact .inr ⟨token :: front, scalar, rest, stage, rfl, .head step steps, found⟩

end Steps

/-- A reading of the text comes to the scalar where the probability of an optional is awaited. -/
def ReadsAsProbability (text : String) (scalar : Scalar) : Prop :=
  ∃ front rest stage,
    (Lexemes.ofText text.toList).items.map Lexeme.token = front ++ .scalar scalar :: rest ∧
      Steps ⟨.document, none, false⟩ front stage ∧
      stage.skipping = none ∧ stage.focus.AwaitsProbability

/-- Some probability in the text is a string with the name of a NaN. -/
def SpellsOutNaN (text : String) : Prop :=
  ∃ spelling, ReadsAsProbability text (.string spelling) ∧ SpellsNaN spelling

theorem mem_items_of_readsAsProbability {text : String} {scalar : Scalar}
    (reads : ReadsAsProbability text scalar) :
    ∃ item ∈ (Lexemes.ofText text.toList).items, item.token = .scalar scalar := by
  obtain ⟨front, rest, stage, tokens, _⟩ := reads
  apply List.mem_map.mp
  rw [tokens]
  exact List.mem_append_right _ List.mem_cons_self

/-- What a text spells out is among its strings. -/
theorem string_of_spellsOutNaN {text : String} (spelt : SpellsOutNaN text) :
    ∃ spelling ∈ (Lexemes.ofText text.toList).items.filterMap (·.token.string?), SpellsNaN spelling := by
  obtain ⟨spelling, reads, named⟩ := spelt
  obtain ⟨item, member, token⟩ := mem_items_of_readsAsProbability reads
  refine ⟨spelling, List.mem_filterMap.mpr ⟨item, member, ?_⟩, named⟩
  rw [token]
  rfl

/-- Every probability of a rule set has been read from a scalar in its place. -/
theorem source_of_read {text : String} {rules : RuleSet} (read : Compiled.read text.toList = .ok rules)
    {number : Binary64} (member : number ∈ rules.probabilities) :
    ∃ scalar, ReadsAsProbability text scalar ∧ LenientNumber scalar number := by
  obtain ⟨front, token, rest, last, tokens, steps, completes⟩ := run_eq_ok_iff.mp read
  have inside : number ∈ last.focus.probabilities := by
    cases completes with
    | value advance =>
      cases advance
      cases member
    | close close =>
      cases close
      exact member
  rcases mem_steps steps inside with none | ⟨before, scalar, behind, stage, rfl, steps, reading, awaited, read⟩
  · cases none
  · refine ⟨scalar, ⟨before, behind ++ token :: rest, stage, ?_, steps, reading, awaited⟩, read⟩
    rw [tokens, List.append_assoc, List.cons_append]

end Compiled

namespace RuleSet
open Compiled

theorem probability_source {text : String} {rules : RuleSet} (parsed : parse text = .ok rules)
    {probability : Binary64} {child : Production} (held : rules.Holds (.opt probability child)) :
    ∃ scalar, ReadsAsProbability text scalar ∧ LenientNumber scalar probability ∧
      (probability.isNaN = true ↔ ∃ spelling, scalar = .string spelling ∧ SpellsNaN spelling) := by
  have member : probability ∈ rules.probabilities := mem_probabilities_iff.mpr ⟨child, held⟩
  obtain ⟨scalar, reads, number⟩ := source_of_read (parse_eq_ok_iff.mp parsed) member
  obtain ⟨item, member, token⟩ := mem_items_of_readsAsProbability reads
  exact ⟨scalar, reads, number, number.isNaN_iff (token ▸ Lexemes.ofText_numeric _ item member)⟩

theorem spellsOutNaN_of_isNaN {text : String} {rules : RuleSet} (parsed : parse text = .ok rules)
    {probability : Binary64} {child : Production} (held : rules.Holds (.opt probability child))
    (unknown : probability.isNaN = true) : SpellsOutNaN text := by
  obtain ⟨scalar, reads, _, named⟩ := probability_source parsed held
  obtain ⟨spelling, rfl, spelled⟩ := named.mp unknown
  exact ⟨spelling, reads, spelled⟩

private theorem optional_of_flaw {rules : RuleSet} {rule other : String} {node : Production}
    {probability : Binary64}
    (flawed : node.flaw? rules rule = some (.invalidProbability probability other)) :
    probability.isProbability = false ∧ ∃ child, node = .opt probability child := by
  unfold Production.flaw? at flawed
  split at flawed
  all_goals try split at flawed
  all_goals cases flawed
  next outside => exact ⟨Bool.not_eq_true _ ▸ outside, _, rfl⟩

/-- A probability that is reported stands in an optional, and is out of range. -/
theorem held_of_rejected {rules : RuleSet} {probability : Binary64} {rule : String}
    (rejected : rules.validate = .error (.invalidProbability probability rule)) :
    probability.isProbability = false ∧ ∃ child, rules.Holds (.opt probability child) := by
  rcases rejected_iff.mp rejected with first | ⟨_, name, same, _⟩
  · obtain ⟨entry, present, node, inside, flawed⟩ :=
      mem_bodyViolations_iff.mp (List.mem_of_mem_head? first)
    obtain ⟨outside, child, rfl⟩ := optional_of_flaw flawed
    exact ⟨outside, child, entry, present, inside⟩
  · cases same

/-- A rule set holds no NaN unless its text spells one out in the place of a probability. Without
one the rule set is equal to itself, and a probability that is reported lies below zero or above one.
What is loaded holds no NaN in any case. -/
theorem nan_is_spelt_out (text : String) :
    (∀ rules, parse text = .ok rules →
      (∀ probability child, rules.Holds (.opt probability child) →
        ∃ scalar, ReadsAsProbability text scalar ∧ LenientNumber scalar probability ∧
          (probability.isNaN = true ↔ ∃ spelling, scalar = .string spelling ∧ SpellsNaN spelling)) ∧
      (¬SpellsOutNaN text → rules.Numeric ∧ rules.equal rules = true)) ∧
    (∀ probability rule, load text = .error (.invalidProbability probability rule) →
      probability.less .zero = true ∨ Binary64.one.less probability = true ∨
        probability.isNaN = true ∧ SpellsOutNaN text) ∧
    ∀ rules, load text = .ok rules → rules.Numeric := by
  refine ⟨fun rules parsed => ⟨fun _ _ held => probability_source parsed held, ?_⟩, ?_, ?_⟩
  · intro silent
    have numeric : rules.Numeric := by
      intro probability child held
      rw [← Bool.not_eq_true]
      exact fun unknown => silent (spellsOutNaN_of_isNaN parsed held unknown)
    exact ⟨numeric, alike_relatedByForm.self_iff.mpr numeric⟩
  · intro probability rule loaded
    rcases load_eq_error_iff.mp loaded with failed | ⟨rules, parsed, rejected⟩
    · obtain ⟨failure, _, same⟩ := parse_failed failed
      cases same
    obtain ⟨outside, child, held⟩ := held_of_rejected rejected
    rcases Binary64.out_of_range_iff.mp outside with below | above | unknown
    · exact .inl below
    · exact .inr (.inl above)
    · exact .inr (.inr ⟨unknown, spellsOutNaN_of_isNaN parsed held unknown⟩)
  · intro rules loaded
    obtain ⟨parsed, _, accepted⟩ := load_eq_ok_iff.mp loaded
    obtain ⟨rfl, _⟩ := accepted_iff.mp accepted
    exact numeric_of_accepted accepted

/-- A rule that is a word with a probability, which is spelt out in a string. -/
def chanceText (spelling : String) : String :=
  "\x7b\"start\":\x7b\"opt\":\x7b\"f\":\"" ++ (spelling ++
    "\",\"opt\":\x7b\"lit\":\"x\"\x7d\x7d\x7d\x7d")

/-- A probability below zero is reported, but it is a number. -/
theorem chance_below_zero_is_numeric :
    ∃ rules probability, parse (chanceText "-1e-1") = .ok rules ∧ ¬SpellsOutNaN (chanceText "-1e-1") ∧
      rules.Numeric ∧ rules.equal rules = true ∧
      load (chanceText "-1e-1") = .error (.invalidProbability probability "start") ∧
      probability.less .zero = true := by
  have silent : ¬SpellsOutNaN (chanceText "-1e-1") := by
    have strings : ∀ spelling ∈ (Lexemes.ofText (chanceText "-1e-1").toList).items.filterMap
        (·.token.string?), ¬SpellsNaN spelling := by decide +kernel
    intro spelt
    obtain ⟨spelling, member, named⟩ := string_of_spellsOutNaN spelt
    exact strings spelling member named
  have read : (parse (chanceText "-1e-1")).map (fun _ => ()) = .ok () := by decide +kernel
  have loaded : load (chanceText "-1e-1") =
      .error (.invalidProbability (.ofDecimal true 1 (-1)) "start") := by
    apply eq_error_of_map
    decide +kernel
  obtain ⟨numeric, reported, _⟩ := nan_is_spelt_out (chanceText "-1e-1")
  cases parsed : parse (chanceText "-1e-1") with
  | error violation =>
    rw [parsed] at read
    cases read
  | ok rules =>
    obtain ⟨clean, itself⟩ := (numeric rules parsed).2 silent
    refine ⟨rules, _, rfl, silent, clean, itself, loaded, ?_⟩
    rcases reported _ _ loaded with below | above | ⟨_, spelled⟩
    · exact below
    · exact absurd above (by decide +kernel)
    · exact absurd spelled silent

/-- The name of a NaN is taken for a probability. -/
theorem name_of_nan_is_parsed :
    ∃ rules child, parse (chanceText "nan") = .ok rules ∧ rules.Holds (.opt .nan child) ∧
      Binary64.nan.isNaN = true ∧ rules.equal rules = false ∧
      load (chanceText "nan") = .error (.invalidProbability .nan "start") ∧
      Binary64.nan.less .zero = false ∧ Binary64.one.less .nan = false := by
  have read : (parse (chanceText "nan")).map (fun rules => (rules.probabilities, rules.equal rules)) =
      .ok ([.nan], false) := by decide +kernel
  have loaded : load (chanceText "nan") = .error (.invalidProbability .nan "start") := by
    apply eq_error_of_map
    decide +kernel
  cases parsed : parse (chanceText "nan") with
  | error violation =>
    rw [parsed] at read
    cases read
  | ok rules =>
    rw [parsed] at read
    obtain ⟨found, different⟩ := Prod.mk.inj (Except.ok.inj read)
    obtain ⟨child, held⟩ := mem_probabilities_iff.mp (found ▸ List.mem_singleton_self Binary64.nan)
    exact ⟨rules, child, rfl, held, by decide, different, loaded, by decide, by decide⟩

end RuleSet
end PracticeGrammar
