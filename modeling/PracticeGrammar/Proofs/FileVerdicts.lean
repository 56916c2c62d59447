import PracticeGrammar.CommandLine.Check
import PracticeGrammar.Proofs.Acceptance
import PracticeGrammar.Proofs.FailureOffsets
import PracticeGrammar.Proofs.FirstViolation
import PracticeGrammar.Proofs.UsageCheck

/-! What the checker says of a file. What should be said is described from what the path is found to
hold, without regard to the stages of a run: either there is a well-formed rule set to be summed up,
or there is one thing to complain of. A run says just that, and being quiet takes nothing away but
the summary. -/

namespace PracticeGrammar

namespace RuleSet

/-- The first thing wrong with a text: it is no rule set at all, or a node of some body is at fault,
or else a rule is not in use. -/
inductive FirstViolation (text : String) : Violation → Prop where
  | malformed {detail} (failed : parse text = .error (.malformedNode detail)) :
      FirstViolation text (.malformedNode detail)
  | body {rules violation} (parsed : parse text = .ok rules)
      (first : rules.bodyViolations.head? = some violation) : FirstViolation text violation
  | unused {rules name} (parsed : parse text = .ok rules) (clean : rules.bodyViolations = [])
      (unused : rules.Unused name)
      (least : ∀ other, rules.Unused other → other = name ∨ Names.octets name < Names.octets other) :
      FirstViolation text (.unreferencedRule name)

theorem load_eq_error_iff_first {text : String} {violation : Violation} :
    load text = .error violation ↔ FirstViolation text violation := by
  rw [load_eq_error_iff]
  constructor
  · rintro (failed | ⟨rules, parsed, rejected⟩)
    · obtain ⟨failure, _, rfl⟩ := parse_failed failed
      exact .malformed failed
    · rcases rejected_iff.mp rejected with first | ⟨clean, name, rfl, unused, least⟩
      · exact .body parsed first
      · exact .unused parsed clean unused fun other stray =>
          (least other stray).imp_right Names.lt_iff_octets_lt.mp
  · rintro (failed | ⟨parsed, first⟩ | ⟨parsed, clean, unused, least⟩)
    · exact .inl failed
    · exact .inr ⟨_, parsed, rejected_iff.mpr (.inl first)⟩
    · refine .inr ⟨_, parsed, rejected_iff.mpr (.inr ⟨clean, _, rfl, unused, ?_⟩)⟩
      exact fun other stray => (least other stray).imp_right Names.lt_iff_octets_lt.mpr

theorem load_eq_ok_iff_wellFormed {text : String} {rules : RuleSet} :
    load text = .ok rules ↔ parse text = .ok rules ∧ rules.WellFormed := by
  rw [load_eq_ok_iff]
  simp only [accepted_iff, ← wellFormed_iff]
  constructor
  · rintro ⟨_, parsed, rfl, wellFormed⟩
    exact ⟨parsed, wellFormed⟩
  · rintro ⟨parsed, wellFormed⟩
    exact ⟨rules, parsed, rfl, wellFormed⟩

end RuleSet

namespace CommandLine

/-- The file is a text on which loading succeeds. -/
def Accepted (contents : Except ReadFailure ByteArray) (rules : RuleSet) : Prop :=
  ∃ text : String, contents = .ok text.toUTF8 ∧ RuleSet.parse text = .ok rules ∧ rules.WellFormed

/-- Why there is no text to be checked. -/
inductive Unreadable : Except ReadFailure ByteArray → ReadFailure → Prop where
  | failed (failure : ReadFailure) : Unreadable (.error failure) failure
  | encoding {octets} (undecodable : ∀ text : String, octets ≠ text.toUTF8) :
      Unreadable (.ok octets) .notText

/-- What is wrong with a path, in words. -/
inductive Complaint (path : String) (contents : Except ReadFailure ByteArray) : String → Prop where
  | unreadable {failure} (unreadable : Unreadable contents failure) :
      Complaint path contents ("failed to read " ++ path ++ ": " ++ failure.reason)
  | invalid {text violation} (found : contents = .ok (String.toUTF8 text))
      (first : RuleSet.FirstViolation text violation) : Complaint path contents violation.message

/-- What is said of a rule set that is accepted. -/
inductive Summary (rules : RuleSet) : String → Prop where
  | intro {entries} (ascending : entries.Pairwise fun first second => Names.octets first < Names.octets second)
      (complete : ∀ name, name ∈ entries ↔
        name ∈ rules.names ∧ (name = "start" ∨ "start_".toList <+: name.toList)) :
      Summary rules ("ok: " ++ toString rules.names.length ++ " rules, entry points: " ++
        ", ".intercalate entries ++ "\n")

theorem summary_summaryLine (rules : RuleSet) : Summary rules (summaryLine rules) := by
  have size : rules.names.length = rules.size := List.length_map _
  have summed : Summary rules _ := .intro ((RuleSet.names_octets_ascending rules).filter isEntryPoint)
    fun _ => RuleSet.mem_entryPoints_iff
  rw [size] at summed
  exact summed

theorem decode_eq_ok_iff {octets : ByteArray} {text : String} :
    decode octets = .ok text ↔ octets = text.toUTF8 := by
  unfold decode String.fromUTF8?
  split
  next found decoded =>
    split at decoded <;> cases decoded
    rw [Except.ok.injEq, ← String.toByteArray_inj]
    rfl
  next refused =>
    split at refused
    · cases refused
    next invalid =>
      simp only [reduceCtorEq, false_iff]
      rintro rfl
      exact invalid text.isValidUTF8

theorem decode_undecodable {octets : ByteArray} (undecodable : ∀ text : String, octets ≠ text.toUTF8) :
    decode octets = .error .notText := by
  cases decoded : String.fromUTF8? octets with
  | none => rw [decode, decoded]
  | some text =>
    have found : decode octets = .ok text := by rw [decode, decoded]
    exact absurd (decode_eq_ok_iff.mp found) (undecodable text)

theorem text_or_unreadable (contents : Except ReadFailure ByteArray) :
    (∃ text : String, contents = .ok text.toUTF8) ∨ ∃ failure, Unreadable contents failure := by
  cases contents with
  | error failure => exact .inr ⟨failure, .failed failure⟩
  | ok octets =>
    by_cases decodable : ∃ text : String, octets = text.toUTF8
    · obtain ⟨text, rfl⟩ := decodable
      exact .inl ⟨text, rfl⟩
    · exact .inr ⟨.notText, .encoding fun text same => decodable ⟨text, same⟩⟩

section Verdict
variable {path : String} {contents : Except ReadFailure ByteArray}

theorem verdict_of_unreadable {failure : ReadFailure} (unreadable : Unreadable contents failure) :
    (checkFile path contents).verdict = .error (.unreadable path failure.reason) := by
  cases unreadable with
  | failed => rfl
  | @encoding octets undecodable =>
    have refused : (Except.ok octets : Except ReadFailure ByteArray).bind decode = .error .notText :=
      decode_undecodable undecodable
    rw [checkFile, refused]

theorem verdict_of_text (text : String) :
    (checkFile path (.ok text.toUTF8)).verdict = match RuleSet.load text with
      | .ok rules => .ok rules
      | .error violation => .error (.invalid violation) := by
  have decoded : (Except.ok text.toUTF8 : Except ReadFailure ByteArray).bind decode = .ok text :=
    decode_eq_ok_iff.mpr rfl
  rw [checkFile, decoded]
  exact checkText_verdict text

theorem verdict_of_accepted {rules : RuleSet} (accepted : Accepted contents rules) :
    (checkFile path contents).verdict = .ok rules := by
  obtain ⟨text, rfl, parsed, wellFormed⟩ := accepted
  rw [verdict_of_text, RuleSet.load_eq_ok_iff_wellFormed.mpr ⟨parsed, wellFormed⟩]

theorem verdict_of_complaint {message : String} (complaint : Complaint path contents message) :
    ∃ failure, (checkFile path contents).verdict = .error failure ∧ failure.message = message := by
  cases complaint with
  | unreadable unreadable => exact ⟨_, verdict_of_unreadable unreadable, rfl⟩
  | @invalid text violation found first =>
    refine ⟨.invalid violation, ?_, rfl⟩
    rw [found, verdict_of_text, RuleSet.load_eq_error_iff_first.mpr first]

/-- There is always something to be said. -/
theorem accepted_or_complaint (path : String) (contents : Except ReadFailure ByteArray) :
    (∃ rules, Accepted contents rules) ∨ ∃ message, Complaint path contents message := by
  rcases text_or_unreadable contents with ⟨text, found⟩ | ⟨failure, unreadable⟩
  · cases loaded : RuleSet.load text with
    | ok rules => exact .inl ⟨rules, text, found, RuleSet.load_eq_ok_iff_wellFormed.mp loaded⟩
    | error violation =>
      exact .inr ⟨_, .invalid found (RuleSet.load_eq_error_iff_first.mp loaded)⟩
  · exact .inr ⟨_, .unreadable unreadable⟩

end Verdict

namespace LogFilter

/-- The log is off: no notice is shown. -/
def Silent (filter : LogFilter) : Prop := ∀ notice, filter.shows notice = false

theorem log_of_silent {filter : LogFilter} (silent : filter.Silent) (notices : List Notice) :
    filter.log notices = "" := by
  have none : notices.filter filter.shows = [] :=
    List.filter_eq_nil_iff.mpr fun notice _ => Bool.not_eq_true _ ▸ silent notice
  rw [log, none]
  rfl

/-- Notices are shown by the levels `debug` and `trace` alone. -/
theorem silent_of_limit {filter : LogFilter}
    (limit : ∀ level ∈ filter.limit, level.rank < Level.debug.rank) : filter.Silent := by
  intro notice
  have talkative : Level.debug.rank ≤ notice.level.rank := by
    cases notice <;> simp [Notice.level, Level.rank]
  cases known : filter.limit with
  | none => simp [shows, known]
  | some level =>
    have below := limit level (known ▸ rfl)
    simp only [shows, known, Option.any_some, Bool.and_eq_false_iff, decide_eq_false_iff_not]
    omega

end LogFilter

namespace Draft

/-- The same arguments and a wish to be quiet. -/
def silenced (draft : Draft) : Draft := { draft with quiet := true }

theorem addPositional_silenced (draft : Draft) (text : String) :
    draft.silenced.addPositional text = (draft.addPositional text).map silenced := by
  obtain ⟨path, quiet, ended⟩ := draft
  cases path <;> rfl

/-- A wish to be quiet has no part in how the arguments behind it are read. -/
theorem read_silenced (draft : Draft) (arguments : List String) :
    draft.silenced.read arguments = (draft.read arguments).map silenced := by
  have same (draft : Draft) : draft.silenced.optionsEnded = draft.optionsEnded := rfl
  fun_induction read draft arguments with
  | case1 => rfl
  | case2 | case6 =>
    rw [read.eq_def]
    simp only [addPositional_silenced, *, Bool.false_eq_true, reduceIte, Option.map_none]
  | case3 | case7 =>
    rename_i ih
    rw [read.eq_def]
    simp only [addPositional_silenced, *, Bool.false_eq_true, reduceIte, Option.map_some]
  | case5 | case8 | case11 =>
    rw [read.eq_def]
    simp only [*, Bool.false_eq_true, reduceIte, Option.map_none]
  | case4 | case9 | case10 | case12 =>
    rename_i ih
    rw [read.eq_def]
    simp only [*, Bool.false_eq_true, reduceIte] at ih ⊢
    exact ih

end Draft

theorem ofArguments?_quiet (arguments : List String) :
    Options.ofArguments? ("--quiet" :: arguments) =
      (Options.ofArguments? arguments).map fun options => { options with quiet := true } := by
  have word : Argument.of "--quiet" = .named "quiet".toList none := by decide
  have option : OptionName.ofText? "quiet".toList = some .quiet := by decide +kernel
  have first : Draft.initial.read ("--quiet" :: arguments) = Draft.initial.silenced.read arguments := by
    rw [Draft.read.eq_def]
    simp only [word, option]
    rfl
  rw [Options.ofArguments?, first, Draft.read_silenced, Options.ofArguments?]
  cases Draft.initial.read arguments with
  | none => rfl
  | some draft =>
    obtain ⟨path, quiet, ended⟩ := draft
    cases path <;> rfl

/-- Every path can be given, also one that looks like an option. -/
theorem ofArguments?_path (path : String) : Options.ofArguments? ["--", path] = some ⟨path, false⟩ := by
  have mark : Argument.of "--" = .endOfOptions := by decide
  have read : Draft.initial.read ["--", path] = some ⟨some path, false, true⟩ := by
    simp only [Draft.read, Draft.initial, mark, Bool.false_eq_true, reduceIte, Draft.addPositional]
  rw [Options.ofArguments?, read]
  rfl

section Responses
variable {arguments : List String} {options : Options} {filter : LogFilter}
  {contents : String → Except ReadFailure ByteArray}

theorem respond_eq (understood : Options.ofArguments? arguments = some options) :
    respond arguments filter contents =
      tell filter options.quiet (checkFile options.path (contents options.path)) := by
  rw [respond, understood]

theorem respond_of_accepted (understood : Options.ofArguments? arguments = some options)
    (silent : filter.Silent) {rules : RuleSet} (accepted : Accepted (contents options.path) rules) :
    respond arguments filter contents = ⟨0, if options.quiet then "" else summaryLine rules, ""⟩ := by
  rw [respond_eq understood, tell, verdict_of_accepted accepted]
  simp only [LogFilter.log_of_silent silent]

theorem respond_of_complaint (understood : Options.ofArguments? arguments = some options)
    (silent : filter.Silent) {message : String}
    (complaint : Complaint options.path (contents options.path) message) :
    respond arguments filter contents = ⟨1, "", "error: " ++ message ++ "\n"⟩ := by
  obtain ⟨failure, failed, rfl⟩ := verdict_of_complaint complaint
  rw [respond_eq understood, tell, failed]
  simp only [LogFilter.log_of_silent silent, String.empty_append, errorLine]

/-- Asking to be quiet before everything else takes the output away and changes nothing else. -/
theorem respond_quiet (arguments : List String) (filter : LogFilter)
    (contents : String → Except ReadFailure ByteArray) :
    respond ("--quiet" :: arguments) filter contents =
      { respond arguments filter contents with output := "" } := by
  rw [respond, ofArguments?_quiet, respond]
  cases Options.ofArguments? arguments with
  | none => rfl
  | some options =>
    simp only [Option.map_some, tell]
    cases (checkFile options.path (contents options.path)).verdict <;> rfl

end Responses

/-- A run ends well exactly if the file is a text with a well-formed rule set, which it then sums up
unless it is asked to be quiet. Otherwise it complains of the first thing that is wrong. Being quiet
makes no difference but for the summary. -/
theorem run_tells_the_verdict {arguments : List String} {options : Options} {filter : LogFilter}
    (understood : Options.ofArguments? arguments = some options) (silent : filter.Silent)
    (contents : String → Except ReadFailure ByteArray) :
    ((respond arguments filter contents).code = 0 ↔
      ∃ rules, Accepted (contents options.path) rules) ∧
    (∀ rules, Accepted (contents options.path) rules → ∃ summary, Summary rules summary ∧
      respond arguments filter contents = ⟨0, if options.quiet then "" else summary, ""⟩) ∧
    ((∀ rules, ¬Accepted (contents options.path) rules) →
      ∃ message, Complaint options.path (contents options.path) message) ∧
    (∀ message, Complaint options.path (contents options.path) message →
      respond arguments filter contents = ⟨1, "", "error: " ++ message ++ "\n"⟩) ∧
    (∀ others otherOptions, Options.ofArguments? others = some otherOptions →
      otherOptions.path = options.path →
      (respond others filter contents).code = (respond arguments filter contents).code ∧
      (respond others filter contents).errors = (respond arguments filter contents).errors ∧
      ((respond arguments filter contents).code = 1 ∨ otherOptions.quiet = options.quiet →
        respond others filter contents = respond arguments filter contents)) ∧
    respond ("--quiet" :: arguments) filter contents =
      { respond arguments filter contents with output := "" } := by
  have heard := accepted_or_complaint options.path (contents options.path)
  refine ⟨⟨fun well => ?_, ?_⟩, ?_, fun rejected => ?_, ?_, ?_, respond_quiet arguments filter contents⟩
  · refine heard.resolve_right fun ⟨message, complaint⟩ => ?_
    rw [respond_of_complaint understood silent complaint] at well
    cases well
  · rintro ⟨rules, accepted⟩
    rw [respond_of_accepted understood silent accepted]
  · exact fun rules accepted =>
      ⟨_, summary_summaryLine rules, respond_of_accepted understood silent accepted⟩
  · exact heard.resolve_left fun ⟨rules, accepted⟩ => rejected rules accepted
  · exact fun message complaint => respond_of_complaint understood silent complaint
  · intro others otherOptions otherwise path
    rcases heard with ⟨rules, accepted⟩ | ⟨message, complaint⟩
    · have other := respond_of_accepted otherwise silent (path ▸ accepted)
      rw [respond_of_accepted understood silent accepted, other]
      refine ⟨rfl, rfl, ?_⟩
      rintro (bad | same)
      · cases bad
      · rw [same]
    · have other := respond_of_complaint otherwise silent (path ▸ complaint)
      rw [respond_of_complaint understood silent complaint, other]
      exact ⟨rfl, rfl, fun _ => rfl⟩

/-- A rule that is a word. -/
def wordText (name : String) : String := "\x7b\"" ++ (name ++ "\":\x7b\"lit\":\"x\"\x7d\x7d")

/-- The same rule is summed up under the name of an entry point and complained of under another. Text
that is cut off inside a letter is not read at all. -/
theorem word_is_judged_by_its_name :
    (∃ rules summary, Accepted (.ok (wordText "start").toUTF8) rules ∧ Summary rules summary ∧
      respond ["--", "c.json"] .standard (fun _ => .ok (wordText "start").toUTF8) = ⟨0, summary, ""⟩ ∧
      respond ["--quiet", "--", "c.json"] .standard (fun _ => .ok (wordText "start").toUTF8) =
        ⟨0, "", ""⟩) ∧
    respond ["--", "c.json"] .standard (fun _ => .ok (wordText "orphan").toUTF8) =
      ⟨1, "", "error: unreferenced rule <orphan>\n"⟩ ∧
    respond ["--", "c.json"] .standard (fun _ => .ok ⟨#[0xc3]⟩) =
      ⟨1, "", "error: failed to read c.json: stream did not contain valid UTF-8\n"⟩ := by
  have understood := ofArguments?_path "c.json"
  have silent : LogFilter.standard.Silent := by
    apply LogFilter.silent_of_limit
    decide
  refine ⟨?_, ?_, ?_⟩
  · have fine : (RuleSet.load (wordText "start")).map (fun _ => ()) = .ok () := by decide +kernel
    cases loaded : RuleSet.load (wordText "start") with
    | error violation =>
      rw [loaded] at fine
      cases fine
    | ok rules =>
      have accepted : Accepted (.ok (wordText "start").toUTF8) rules :=
        ⟨_, rfl, RuleSet.load_eq_ok_iff_wellFormed.mp loaded⟩
      obtain ⟨_, summed, _, _, _, quiet⟩ :=
        run_tells_the_verdict understood silent fun _ => .ok (wordText "start").toUTF8
      obtain ⟨summary, complete, told⟩ := summed rules accepted
      rw [told] at quiet
      exact ⟨rules, summary, accepted, complete, told, quiet⟩
  · have loaded : RuleSet.load (wordText "orphan") = .error (.unreferencedRule "orphan") := by
      apply eq_error_of_map
      decide +kernel
    obtain ⟨_, _, _, complained, _⟩ :=
      run_tells_the_verdict understood silent fun _ => .ok (wordText "orphan").toUTF8
    exact complained _ (.invalid rfl (RuleSet.load_eq_error_iff_first.mp loaded))
  · have undecodable (text : String) : (⟨#[0xc3]⟩ : ByteArray) ≠ text.toUTF8 := by
      have refused : decode ⟨#[0xc3]⟩ = .error .notText := by decide +kernel
      intro same
      rw [decode_eq_ok_iff.mpr same] at refused
      cases refused
    obtain ⟨_, _, _, complained, _⟩ := run_tells_the_verdict understood silent fun _ => .ok ⟨#[0xc3]⟩
    exact complained _ (.unreadable (.encoding undecodable))

end CommandLine
end PracticeGrammar
