import Verdict.Policy.Evaluation

/-!
# Reasons

Why a predicate has the truth value it has, as a tree of clauses that quote the values of the
facts. The wanted truth value is handed down the tree of the predicate; a predicate that faults is
explained by the unknown facts that it mentions.
-/

namespace Verdict

/-- One side of a comparison, with the value that was compared. -/
structure Quote where
  term : Term
  value : Option Value

/-- The text of a quoted term: a fact stands before its value, and a term without value is
unknown. -/
def Quote.text (q : Quote) : String :=
  match q.value with
  | some v =>
    match q.term with
    | .fact name => name ++ "=" ++ v.text
    | .scaled name factor => name ++ "×" ++ factor.text ++ "=" ++ v.text
    | _ => v.text
  | none => q.term.fact?.getD "?" ++ " unknown"

/-- One statement about the facts. -/
inductive ReasonClause where
  /-- Two values compare as stated. -/
  | comparison (left : Quote) (comparison : Comparison) (right : Quote)
  /-- A fact has a truth value. -/
  | flag (fact : String) (value : Bool)
  /-- All of the facts are known. -/
  | known (facts : List String)
  /-- None of the facts is known. -/
  | unknown (facts : List String)
  /-- The value is not excluded. -/
  | allowed (quote : Quote)
  /-- The value is excluded. -/
  | blocked (quote : Quote)
  /-- Evaluation ends in a fault. -/
  | fault (fault : Fault)

/-- The text of a statement. -/
def ReasonClause.text : ReasonClause → String
  | comparison left c right => left.text ++ " " ++ c.sign ++ " " ++ right.text
  | flag fact value => fact ++ "=" ++ toString value
  | known facts => ", ".intercalate facts ++ " known"
  | unknown facts => ", ".intercalate facts ++ " unknown"
  | allowed quote => quote.text ++ " is allowed"
  | blocked quote => quote.text ++ " is blocked"
  | fault f => f.message

/-- Statements that are listed one after the other, or joined by a conjunction. -/
inductive Reason where
  | clause (clause : ReasonClause)
  | listed (parts : List Reason)
  | joined (parts : List Reason)

namespace Reason

mutual

/-- The text of a reason. -/
def text : Reason → String
  | clause c => c.text
  | listed parts => ", ".intercalate (texts parts)
  | joined parts => " and ".intercalate (texts parts)

/-- The texts of several reasons. -/
def texts : List Reason → List String
  | [] => []
  | r :: rest => r.text :: texts rest

end

mutual

/-- The statements of a reason, from left to right. -/
def clauses : Reason → List ReasonClause
  | clause c => [c]
  | listed parts => clausesOf parts
  | joined parts => clausesOf parts

/-- The statements of several reasons. -/
def clausesOf : List Reason → List ReasonClause
  | [] => []
  | r :: rest => r.clauses ++ clausesOf rest

end

end Reason

/-- A term with its value, if it has one. -/
def Term.quote (facts : FactSet) (t : Term) : Quote :=
  ⟨t, (t.eval facts).result.toOption⟩

namespace Predicate

/-- The facts that a predicate mentions and that are not known. -/
def unknownFacts (facts : FactSet) (p : Predicate) : List String :=
  p.facts.filter fun fact => !facts.isKnown fact

/-- The reason for a fault, where the fault comes from a value and not from an unknown fact; else
the given one. -/
def faultOr (facts : FactSet) (p : Predicate) (other : List String → Reason) : Reason :=
  match p.unknownFacts facts with
  | [] =>
    match (p.eval facts).result with
    | .error f => .clause (.fault f)
    | .ok _ => .listed []
  | names => other names

mutual

/-- Why a predicate faults. Of several operands only those that fault themselves are explained. -/
def faultReason (facts : FactSet) : Predicate → Reason
  | all operands =>
    faultOr facts (all operands) fun _ => .joined (faultReasons facts operands)
  | any operands =>
    faultOr facts (any operands) fun _ => .joined (faultReasons facts operands)
  | p => faultOr facts p fun names => .clause (.unknown names)

/-- Why those of several predicates fault that do. -/
def faultReasons (facts : FactSet) : List Predicate → List Reason
  | [] => []
  | p :: rest =>
    if p.faults facts then p.faultReason facts :: faultReasons facts rest
    else faultReasons facts rest

end

/-- The given reason, or why the predicate faults. -/
def orFault (facts : FactSet) (p : Predicate) (r : Reason) : Reason :=
  if p.faults facts then p.faultReason facts else r

/-- The predicate asks for facts to be known and for nothing else. -/
def isKnownTest : Predicate → Bool
  | known _ => true
  | _ => false

mutual

/-- Why a predicate has the wanted truth value. A conjunction that holds and a disjunction that
fails are explained by all operands, otherwise only those count that have the wanted value. -/
def reason (facts : FactSet) : Predicate → (wanted : Bool) → Reason
  | compare left c right, wanted =>
    orFault facts (compare left c right)
      (.clause (.comparison (left.quote facts) (if wanted then c else c.negate)
        (right.quote facts)))
  | flag fact, wanted => orFault facts (flag fact) (.clause (.flag fact wanted))
  | not operand, wanted => orFault facts (not operand) (operand.reason facts !wanted)
  | all operands, wanted =>
    orFault facts (all operands) (.listed (reasons facts operands wanted wanted))
  | any operands, wanted =>
    orFault facts (any operands) (.listed (reasons facts operands (!wanted) wanted))
  | implies premise conclusion, wanted =>
    orFault facts (implies premise conclusion) <|
      if wanted then
        if premise.holds facts then conclusion.reason facts true else premise.reason facts false
      else
        match premise with
        | known _ => conclusion.reason facts false
        | all operands =>
          .joined [.listed (premiseReasons facts operands), conclusion.reason facts false]
        | other => .joined [other.reason facts true, conclusion.reason facts false]
  | known names, wanted =>
    .clause (if wanted then .known names
      else .unknown (names.filter fun fact => !facts.isKnown fact))
  | notIn fact excluded, wanted =>
    orFault facts (notIn fact excluded)
      (.clause (if wanted then .allowed ((Term.fact fact).quote facts)
        else .blocked ((Term.fact fact).quote facts)))

/-- Why operands have the wanted truth value: all of them, or those that have it. -/
def reasons (facts : FactSet) : List Predicate → (every wanted : Bool) → List Reason
  | [], _, _ => []
  | p :: rest, every, wanted =>
    if every || p.holds facts == wanted then
      p.reason facts wanted :: reasons facts rest every wanted
    else reasons facts rest every wanted

/-- Why the operands of a premise hold, without those that only ask for facts to be known. -/
def premiseReasons (facts : FactSet) : List Predicate → List Reason
  | [] => []
  | p :: rest =>
    if p.isKnownTest then premiseReasons facts rest
    else p.reason facts true :: premiseReasons facts rest

end

end Predicate

end Verdict
