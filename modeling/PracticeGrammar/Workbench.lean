import PracticeGrammar.Loading

/-! A workbench for building grammars step by step: a stack of productions and a rule set. -/

namespace PracticeGrammar

/-- The stack is kept top first. -/
structure Workbench where
  rules : RuleSet
  stack : List Production

inductive Command where
  | lit (text : String)
  | ref (name : String)
  /-- Wraps the topmost productions, the lowest of them first. -/
  | seq (count : Nat)
  | alt (count : Nat)
  | opt (probability : Binary64)
  | cond (flag : String) (inverted : Bool)
  | span (label : String)
  | duplicate
  | drop
  | child (index : Nat)
  | same
  | define (name : String)
  | undefine (name : String)
  | fetch (name : String)
  | load (text : String)
  | parse (text : String)
  | validate
  | summary
  | dump
  | inspect

/-- What a command reports. -/
inductive Report where
  | nothing
  /-- The stack holds too few productions, and nothing was changed. -/
  | underflow
  | noChild
  | noRule
  | truth (value : Bool)
  | violation (violation : Violation)
  | audit (audit : Audit)
  | summary (summary : RuleSet.Summary)
  | rules (rules : RuleSet)
  | production (production : Production)

namespace Workbench

def empty : Workbench := ⟨.empty, []⟩

def push (bench : Workbench) (production : Production) : Workbench :=
  { bench with stack := production :: bench.stack }

/-- Replaces the topmost productions by one that is built from them. -/
def combine (bench : Workbench) (count : Nat) (build : List Production → Production) :
    Workbench × Report :=
  if bench.stack.length < count then (bench, .underflow)
  else
    let stack := build (bench.stack.take count).reverse :: bench.stack.drop count
    ({ bench with stack }, .nothing)

/-- Replaces the top by what is built from it. -/
def wrap (bench : Workbench) (build : Production → Production) : Workbench × Report :=
  match bench.stack with
  | [] => (bench, .underflow)
  | top :: rest => ({ bench with stack := build top :: rest }, .nothing)

/-- Takes over the rules that were read, if any were. -/
def accept (bench : Workbench) : Except Violation RuleSet → Workbench × Report
  | .ok rules => ({ bench with rules }, .nothing)
  | .error violation => (bench, .violation violation)

def step (bench : Workbench) : Command → Workbench × Report
  | .lit text => (bench.push (.lit text), .nothing)
  | .ref name => (bench.push (.ref name), .nothing)
  | .seq count => bench.combine count .seq
  | .alt count => bench.combine count .alt
  | .opt probability => bench.wrap (.opt probability)
  | .cond flag inverted => bench.wrap (.cond flag inverted)
  | .span label => bench.wrap (.span label)
  | .duplicate =>
    match bench.stack with
    | [] => (bench, .underflow)
    | top :: _ => (bench.push top, .nothing)
  | .drop =>
    match bench.stack with
    | [] => (bench, .underflow)
    | _ :: rest => ({ bench with stack := rest }, .nothing)
  | .child index =>
    match bench.stack with
    | [] => (bench, .underflow)
    | top :: _ =>
      match top.children[index]? with
      | none => (bench, .noChild)
      | some child => (bench.push child, .nothing)
  | .same =>
    match bench.stack with
    | top :: second :: _ => (bench, .truth (top.equal second))
    | _ => (bench, .underflow)
  | .define name =>
    match bench.stack with
    | [] => (bench, .underflow)
    | top :: rest => (⟨bench.rules.insert name top, rest⟩, .truth (bench.rules.contains name))
  | .undefine name =>
    ({ bench with rules := bench.rules.erase name }, .truth (bench.rules.contains name))
  | .fetch name =>
    match bench.rules.get? name with
    | none => (bench, .noRule)
    | some body => (bench.push body, .nothing)
  | .load text => bench.accept (RuleSet.load text)
  | .parse text => bench.accept (RuleSet.parse text)
  | .validate => (bench, .audit bench.rules.audit)
  | .summary => (bench, .summary bench.rules.summary)
  | .dump => (bench, .rules bench.rules)
  | .inspect =>
    match bench.stack with
    | [] => (bench, .underflow)
    | top :: _ => (bench, .production top)

/-- A command's report with the workbench it leaves behind. -/
structure Entry where
  report : Report
  bench : Workbench

/-- The entries of commands run in turn. -/
def run (bench : Workbench) : List Command → List Entry
  | [] => []
  | command :: rest =>
    let (next, report) := bench.step command
    ⟨report, next⟩ :: run next rest

end Workbench
end PracticeGrammar
