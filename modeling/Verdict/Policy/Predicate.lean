import Verdict.Fact.Comparison
import Verdict.Decimal.Basic
import Verdict.Policy.Names

/-!
# Predicates

The conditions that a policy puts on facts, as trees. A tree also tells which facts it mentions.
-/

namespace Verdict

/-- One side of a comparison. -/
inductive Term where
  /-- The value of a fact. -/
  | fact (name : String)
  /-- A whole number. -/
  | int (n : Int64)
  /-- A decimal. -/
  | decimal (d : Decimal)
  /-- The value of a fact, multiplied by a decimal. -/
  | scaled (name : String) (factor : Decimal)
deriving DecidableEq

/-- The fact that a term reads. -/
def Term.fact? : Term → Option String
  | fact name => some name
  | int _ => none
  | decimal _ => none
  | scaled name _ => some name

/-- A condition on facts. -/
inductive Predicate where
  /-- Two values compare as stated. -/
  | compare (left : Term) (comparison : Comparison) (right : Term)
  /-- A fact is true. -/
  | flag (fact : String)
  /-- The condition fails. -/
  | not (operand : Predicate)
  /-- Every condition holds. -/
  | all (operands : List Predicate)
  /-- Some condition holds. -/
  | any (operands : List Predicate)
  /-- Where the premise holds, so does the conclusion. -/
  | implies (premise conclusion : Predicate)
  /-- Every fact is known. -/
  | known (facts : List String)
  /-- A whole number is none of those listed. -/
  | notIn (fact : String) (excluded : List Int64)

namespace Predicate

mutual

/-- The facts that a condition mentions, one entry for each mention. -/
def mentions : Predicate → List String
  | compare left _ right => left.fact?.toList ++ right.fact?.toList
  | flag fact => [fact]
  | not operand => operand.mentions
  | all operands => mentionsOf operands
  | any operands => mentionsOf operands
  | implies premise conclusion => premise.mentions ++ conclusion.mentions
  | known facts => facts
  | notIn fact _ => [fact]

/-- The facts that several conditions mention. -/
def mentionsOf : List Predicate → List String
  | [] => []
  | p :: rest => p.mentions ++ mentionsOf rest

end

mutual

/-- The facts that a condition wants to be known, one entry for each mention. -/
def knownMentions : Predicate → List String
  | compare _ _ _ => []
  | flag _ => []
  | not operand => operand.knownMentions
  | all operands => knownMentionsOf operands
  | any operands => knownMentionsOf operands
  | implies premise conclusion => premise.knownMentions ++ conclusion.knownMentions
  | known facts => facts
  | notIn _ _ => []

/-- The facts that several conditions want to be known. -/
def knownMentionsOf : List Predicate → List String
  | [] => []
  | p :: rest => p.knownMentions ++ knownMentionsOf rest

end

/-- The facts that a condition mentions, in the order of first mention. -/
def facts (p : Predicate) : List String :=
  Names.distinct p.mentions

/-- The facts that a condition wants to be known, in the order of first mention. -/
def knownFacts (p : Predicate) : List String :=
  Names.distinct p.knownMentions

end Predicate

end Verdict
