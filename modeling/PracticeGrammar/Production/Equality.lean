import PracticeGrammar.Production.Basic

/-! Equality of productions. Texts are compared as they are, probabilities as numbers, so a
production that holds a NaN differs from itself, and the two zeros do not tell productions apart. -/

namespace PracticeGrammar.Production

mutual
def equal : Production → Production → Bool
  | .lit left, .lit right => left == right
  | .ref left, .ref right => left == right
  | .seq left, .seq right => equalAll left right
  | .alt left, .alt right => equalAll left right
  | .opt leftProbability left, .opt rightProbability right =>
    leftProbability.equal rightProbability && equal left right
  | .cond leftFlag leftInverted left, .cond rightFlag rightInverted right =>
    leftFlag == rightFlag && leftInverted == rightInverted && equal left right
  | .span leftLabel left, .span rightLabel right => leftLabel == rightLabel && equal left right
  | _, _ => false

/-- Equality of lists of productions, one by one. -/
def equalAll : List Production → List Production → Bool
  | [], [] => true
  | left :: lefts, right :: rights => equal left right && equalAll lefts rights
  | _, _ => false
end

theorem kind_eq_of_equal {left right : Production} (same : left.equal right = true) :
    left.kind = right.kind := by
  cases left <;> cases right <;> simp_all [equal, kind]

end PracticeGrammar.Production
