import Verdict.Fact.Record
import Verdict.Policy.Standard
import Verdict.Proof.Expression
import Verdict.Request.Error

/-!
# Proof programs

A proof program states a policy and the facts of a request in a form that a solver can check:
declarations of all symbols, their values, and one named assertion for each invariant and for the
guard of each action. Nothing is evaluated here. A value that does not suit the sort of its fact
cannot be written.
-/

namespace Verdict

/-- A line of a proof program. -/
inductive Statement where
  /-- A remark. -/
  | comment (remark : String)
  /-- A symbol and its sort. -/
  | declare (symbol : String) (sort : FactSort)
  /-- The value of a symbol, with a remark after it. -/
  | bind (symbol : String) (value : SExpr) (remark : Option String)
  /-- A named assertion. -/
  | assertion (name : String) (body : SExpr)

/-- The text of a line. -/
def Statement.text : Statement → String
  | comment remark => "; " ++ remark
  | declare symbol sort => (SExpr.apply "declare-const" [.atom symbol, .atom sort.name]).text
  | bind symbol value remark =>
    (SExpr.apply "assert" [.apply "=" [.atom symbol, value]]).text ++
      match remark with
      | some r => " ; " ++ r
      | none => ""
  | assertion name body =>
    (SExpr.apply "assert" [.apply "!" [body, .atom ":named", .atom name]]).text

/-- A proof program. -/
abbrev Program : Type := List Statement

/-- The text of a program, one line for each statement. -/
def Program.text (program : Program) : String :=
  String.join (program.map fun s => s.text ++ "\n")

/-- The placeholder for a value that is not known. -/
def unknownSymbol : String := "?unknown"

/-- A value as an expression of the given sort, and a remark on it: dates are written by their day
number. -/
def Value.literal? (sort : FactSort) : Value → Option (SExpr × Option String)
  | .bool b => if sort = .bool then some (.atom (toString b), none) else none
  | .int n =>
    match sort with
    | .int => some (.int n.toInt, none)
    | .real => some (.real (.ofInt n), none)
    | .bool => none
  | .date d => if sort = .int then some (.int d.julianDay, some d.text) else none
  | .decimal d => if sort = .real then some (.real d, none) else none

/-- The line that gives a declared fact its value. -/
def Declaration.binding (facts : FactSet) (d : Declaration) : Except SortMismatch Statement :=
  match facts.get? d.fact with
  | none => .ok (.bind d.fact (.atom unknownSymbol) none)
  | some value =>
    match value.literal? d.sort with
    | some (literal, remark) => .ok (.bind d.fact literal remark)
    | none => .error ⟨d.fact, d.sort, value.kind⟩

namespace Policy

/-- The facts that some invariant or guard wants to be known, in the order of first mention. -/
def knownFacts (policy : Policy) : List String :=
  Names.distinct ((policy.invariants ++ policy.actions).flatMap (·.condition.knownMentions))

/-- The lines that declare the symbols for facts. -/
def declarations (policy : Policy) : Program :=
  policy.facts.map (fun d => .declare d.fact d.sort) ++
    policy.knownFacts.map fun fact => .declare (knownSymbol fact) .bool

/-- The lines that say which facts are known. -/
def knownBindings (policy : Policy) (facts : FactSet) : Program :=
  policy.knownFacts.map fun fact =>
    .bind (knownSymbol fact) (.atom (toString (facts.isKnown fact))) none

/-- The assertion of an invariant. -/
def invariantAssertion (policy : Policy) (invariant : Clause) : Statement :=
  .assertion invariant.name (policy.expr invariant.condition)

/-- The lines for an action: its guard holds where it is picked. -/
def actionLines (policy : Policy) (action : Clause) : Program :=
  [.declare (pickSymbol action.name) .bool,
    .assertion action.name
      (.apply "=>" [.atom (pickSymbol action.name), policy.expr action.condition])]

/-- The proof program of a policy over facts. -/
def program (policy : Policy) (facts : FactSet) : Except SortMismatch Program := do
  let bindings ← policy.facts.mapM (Declaration.binding facts)
  pure <|
    .comment ("proofgate program " ++ policy.id ++ " (" ++ policy.domain.name ++ ")") ::
    .comment "declarations" :: policy.declarations ++
    .comment "bindings" :: (bindings ++ policy.knownBindings facts) ++
    .comment "invariants" :: policy.invariants.map policy.invariantAssertion ++
    .comment "actions" :: policy.actions.flatMap policy.actionLines

end Policy

/-- The proof program of a record. -/
def FactRecord.program (r : FactRecord) : Except SortMismatch Program :=
  r.domain.policy.program r.known

end Verdict
