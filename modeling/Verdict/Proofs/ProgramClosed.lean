import Verdict.Proofs.ProgramIdentity
import Verdict.Proofs.ProgramReader
import Verdict.Proofs.TrueReasons

/-!
# Proof programs are closed

A program declares every symbol once and before any line that uses it. It binds each declared fact
and each fact that some condition wants to be known, however deep in the condition, and it asserts
each invariant and each guard. Where a fact has a value that does not suit its sort, there is no
program, and the first such fact is named.
-/

namespace Verdict

/-! ## Symbols of lines -/

namespace Statement

/-- The symbol that a line declares. -/
def declared? : Statement → Option String
  | declare symbol _ => some symbol
  | _ => none

/-- The symbol that a line binds. -/
def bound? : Statement → Option String
  | bind symbol _ _ => some symbol
  | _ => none

/-- The name and the expression of a named assertion. -/
def named? : Statement → Option (String × SExpr)
  | assertion name body => some (name, body)
  | _ => none

/-- The expression that a line asserts, with or without a name. -/
def asserted? : Statement → Option SExpr
  | bind symbol value _ => some (.apply "=" [.atom symbol, value])
  | assertion _ body => some body
  | _ => none

/-- The symbols in the expression of a line. -/
def symbols (s : Statement) : List String :=
  (s.asserted?.toList.flatMap SExpr.atoms).filter SExpr.isSymbol

theorem of_mem_symbols {s : Statement} {P : String → Prop} (h : ∀ e ∈ s.asserted?, e.Over P)
    {symbol : String} (hsymbol : symbol ∈ s.symbols) : P symbol := by
  obtain ⟨hmem, hsymbol⟩ := List.mem_filter.mp hsymbol
  obtain ⟨e, he, hmem⟩ := List.mem_flatMap.mp hmem
  exact (h e (Option.mem_toList.mp he)).of_isSymbol hmem hsymbol

end Statement

namespace Program

/-- The symbols that a program declares, one entry for each line. -/
def declared (program : Program) : List String :=
  program.filterMap Statement.declared?

/-- The symbols that a program binds, one entry for each line. -/
def bound (program : Program) : List String :=
  program.filterMap Statement.bound?

/-- The named assertions of a program. -/
def assertions (program : Program) : List (String × SExpr) :=
  program.filterMap Statement.named?

/-- Each symbol of a line is among those given or is declared before the line. -/
def ClosedAfter (start : List String) (program : Program) : Prop :=
  ∀ before line after, program = before ++ line :: after →
    ∀ symbol ∈ line.symbols, symbol ∈ start ++ declared before

variable {start : List String} {program rest : Program}

theorem declared_append (program rest : Program) :
    declared (program ++ rest) = declared program ++ declared rest :=
  List.filterMap_append

theorem closedAfter_of_forall (h : ∀ line ∈ program, ∀ symbol ∈ line.symbols, symbol ∈ start) :
    ClosedAfter start program := by
  rintro before line after rfl symbol hsymbol
  exact List.mem_append_left _ (h line (by simp) symbol hsymbol)

theorem ClosedAfter.append (h : ClosedAfter start program)
    (hrest : ClosedAfter (start ++ declared program) rest) : ClosedAfter start (program ++ rest) := by
  intro before line after heq symbol hsymbol
  rcases List.append_eq_append_iff.mp heq with ⟨more, rfl, hmore⟩ | ⟨more, rfl, hmore⟩
  · rw [declared_append, ← List.append_assoc]
    exact hrest more line after hmore symbol hsymbol
  · cases more with
    -- The line is the first of the second part.
    | nil =>
      rw [List.append_nil] at hrest
      simpa [declared] using hrest [] line after hmore.symm symbol hsymbol
    | cons first more =>
      obtain ⟨rfl, -⟩ := List.cons.inj hmore
      exact h before line more rfl symbol hsymbol

end Program

/-! ## Conditions within conditions -/

namespace Predicate

theorem Part.trans {p q r : Predicate} (h : p.Part q) (h' : q.Part r) : p.Part r := by
  induction h' with
  | whole => exact h
  | negated _ ih => exact .negated ih
  | conjunct _ hmem ih => exact .conjunct ih hmem
  | disjunct _ hmem ih => exact .disjunct ih hmem
  | premise _ ih => exact .premise ih
  | conclusion _ ih => exact .conclusion ih

theorem Part.knownMentions {p q : Predicate} (h : p.Part q) {fact : String}
    (hfact : fact ∈ q.knownMentions) : fact ∈ p.knownMentions := by
  induction h with
  | whole => exact hfact
  | negated _ ih => exact ih hfact
  | conjunct _ hmem ih => exact ih (mem_knownMentionsOf.mpr ⟨_, hmem, hfact⟩)
  | disjunct _ hmem ih => exact ih (mem_knownMentionsOf.mpr ⟨_, hmem, hfact⟩)
  | premise _ ih => exact ih (List.mem_append_left _ hfact)
  | conclusion _ ih => exact ih (List.mem_append_right _ hfact)

/-- The facts that a condition wants to be known are those that stand in some part of it, at
whatever depth, that says that facts are known. -/
theorem mem_knownMentions_iff {p : Predicate} {fact : String} :
    fact ∈ p.knownMentions ↔ ∃ names, p.Part (.known names) ∧ fact ∈ names := by
  constructor
  · intro h
    induction p with
    | compare left c right => exact absurd h List.not_mem_nil
    | flag name => exact absurd h List.not_mem_nil
    | not operand ih =>
      obtain ⟨names, hpart, hfact⟩ := ih h
      exact ⟨names, (Part.negated .whole).trans hpart, hfact⟩
    | all operands ih =>
      obtain ⟨p, hp, h⟩ := mem_knownMentionsOf.mp h
      obtain ⟨names, hpart, hfact⟩ := ih p hp h
      exact ⟨names, (Part.conjunct .whole hp).trans hpart, hfact⟩
    | any operands ih =>
      obtain ⟨p, hp, h⟩ := mem_knownMentionsOf.mp h
      obtain ⟨names, hpart, hfact⟩ := ih p hp h
      exact ⟨names, (Part.disjunct .whole hp).trans hpart, hfact⟩
    | implies premise conclusion ihp ihc =>
      rcases List.mem_append.mp h with h | h
      · obtain ⟨names, hpart, hfact⟩ := ihp h
        exact ⟨names, (Part.premise .whole).trans hpart, hfact⟩
      · obtain ⟨names, hpart, hfact⟩ := ihc h
        exact ⟨names, (Part.conclusion .whole).trans hpart, hfact⟩
    | known names => exact ⟨names, .whole, h⟩
    | notIn name excluded => exact absurd h List.not_mem_nil
  · rintro ⟨names, hpart, hfact⟩
    exact hpart.knownMentions hfact

end Predicate

/-! ## Facts that cannot be written -/

theorem Value.isSome_literal? (v : Value) (sort : FactSort) :
    (v.literal? sort).isSome = v.kind.fits sort := by
  cases v <;> cases sort <;> rfl

/-- What is wrong with the value of a declared fact, if it does not suit the sort. -/
def Declaration.mismatch? (facts : FactSet) (d : Declaration) : Option SortMismatch :=
  (facts.get? d.fact).bind fun value =>
    if value.kind.fits d.sort then none else some ⟨d.fact, d.sort, value.kind⟩

theorem Declaration.errorOf?_binding (facts : FactSet) (d : Declaration) :
    errorOf? (d.binding facts) = d.mismatch? facts := by
  rw [binding, mismatch?]
  cases facts.get? d.fact with
  | none => rfl
  | some value =>
    rw [Option.bind_some, ← value.isSome_literal?]
    cases hliteral : value.literal? d.sort <;> simp [hliteral, errorOf?]

namespace Policy

variable {policy : Policy} {facts : FactSet} {program : Program}

theorem program_eq_error_iff {e : SortMismatch} :
    policy.program facts = .error e ↔
      policy.facts.findSome? (fun d => d.mismatch? facts) = some e := by
  have hbindings : errorOf? (policy.program facts) =
      errorOf? (policy.facts.mapM (Declaration.binding facts)) :=
    (congrArg errorOf? (program_eq policy facts)).trans (errorOf?_bind_pure _ _)
  rw [← errorOf?_eq_some_iff, hbindings, errorOf?_mapM]
  simp only [Declaration.errorOf?_binding]

/-! ## Closed programs -/

/-- The symbols for the facts and the actions can be told apart, and predicates mention declared
facts only. -/
structure TellsApart (policy : Policy) : Prop where
  facts : (policy.facts.map (·.fact)).Nodup
  actions : (policy.actions.map (·.name)).Nodup
  unprefixed : ∀ d ∈ policy.facts,
    ¬ "known.".toList <+: d.fact.toList ∧ ¬ "pick.".toList <+: d.fact.toList
  mentions : ∀ clause ∈ policy.invariants ++ policy.actions,
    ∀ fact ∈ clause.condition.mentions, policy.declares fact = true

/-- The symbols that are bound to values. -/
def boundSymbols (policy : Policy) : List String :=
  policy.facts.map (·.fact) ++ policy.knownFacts.map knownSymbol

theorem mem_boundSymbols_fact {fact : String} (h : policy.declares fact = true) :
    fact ∈ policy.boundSymbols :=
  List.mem_append_left _ ((policy.declares_iff fact).mp h)

theorem mem_boundSymbols_known {clause : Clause} (hclause : clause ∈ policy.invariants ++ policy.actions)
    {fact : String} (h : fact ∈ clause.condition.knownMentions) :
    knownSymbol fact ∈ policy.boundSymbols := by
  refine List.mem_append_right _ (List.mem_map_of_mem ?_)
  exact Names.mem_distinct.mpr (List.mem_flatMap.mpr ⟨clause, hclause, h⟩)

theorem pickSymbol_inj {action action' : String} :
    pickSymbol action = pickSymbol action' ↔ action = action' := by
  rw [pickSymbol, pickSymbol, ← String.toList_inj, String.toList_append, String.toList_append,
    List.append_cancel_left_eq, String.toList_inj]

theorem isPrefix_knownSymbol (fact : String) : "known.".toList <+: (knownSymbol fact).toList := by
  rw [knownSymbol, String.toList_append]
  exact List.prefix_append _ _

theorem isPrefix_pickSymbol (action : String) : "pick.".toList <+: (pickSymbol action).toList := by
  rw [pickSymbol, String.toList_append]
  exact List.prefix_append _ _

theorem knownSymbol_ne_pickSymbol (fact action : String) : knownSymbol fact ≠ pickSymbol action := by
  intro h
  have hlist := congrArg String.toList h
  rw [knownSymbol, pickSymbol, String.toList_append, String.toList_append] at hlist
  exact absurd (List.cons.inj hlist).1 (by decide)

theorem TellsApart.nodup_boundSymbols (h : policy.TellsApart) : policy.boundSymbols.Nodup := by
  refine List.nodup_append.mpr ⟨h.facts, ?_, ?_⟩
  · exact (Names.nodup_distinct _).map fun _ _ => knownSymbol_inj.mp
  · intro symbol hsymbol other hother
    obtain ⟨d, hd, rfl⟩ := List.mem_map.mp hsymbol
    obtain ⟨fact, -, rfl⟩ := List.mem_map.mp hother
    intro heq
    exact (h.unprefixed d hd).1 (heq ▸ isPrefix_knownSymbol fact)

theorem TellsApart.nodup_symbols (h : policy.TellsApart) :
    (policy.boundSymbols ++ policy.actions.map fun action => pickSymbol action.name).Nodup := by
  have hpicks : (policy.actions.map fun action => pickSymbol action.name).Nodup := by
    have hmap := h.actions.map fun _ _ => pickSymbol_inj.mp
    rwa [List.map_map] at hmap
  refine List.nodup_append.mpr ⟨h.nodup_boundSymbols, hpicks, ?_⟩
  intro symbol hsymbol other hother
  obtain ⟨action, -, rfl⟩ := List.mem_map.mp hother
  rcases List.mem_append.mp hsymbol with hsymbol | hsymbol
  · obtain ⟨d, hd, rfl⟩ := List.mem_map.mp hsymbol
    intro heq
    exact (h.unprefixed d hd).2 (heq ▸ isPrefix_pickSymbol action.name)
  · obtain ⟨fact, -, rfl⟩ := List.mem_map.mp hsymbol
    exact knownSymbol_ne_pickSymbol fact action.name

/-! ## The lines of a program -/

/-- The named assertion of an invariant. -/
def invariantEntry (policy : Policy) (invariant : Clause) : String × SExpr :=
  (invariant.name, policy.expr invariant.condition)

/-- The named assertion of an action: its guard holds if it is picked. -/
def actionEntry (policy : Policy) (action : Clause) : String × SExpr :=
  (action.name, .apply "=>" [.atom (pickSymbol action.name), policy.expr action.condition])

theorem bound_bindings {declarations : List Declaration} {bindings : Program}
    (h : declarations.mapM (Declaration.binding facts) = .ok bindings) :
    Program.bound bindings = declarations.map (·.fact) := by
  induction declarations generalizing bindings with
  | nil =>
    cases h
    rfl
  | cons d rest ih =>
    rw [List.mapM_cons] at h
    obtain ⟨line, hline, h⟩ := exists_of_bind_eq_ok h
    obtain ⟨lines, hlines, h⟩ := exists_of_bind_eq_ok h
    cases h
    obtain ⟨literal, remark, rfl, -⟩ := d.exists_of_binding hline
    exact congrArg (d.fact :: ·) (ih hlines)

/-- The lines that give declared facts their values are bindings without other symbols. -/
theorem of_mem_bindings {bindings : Program}
    (h : policy.facts.mapM (Declaration.binding facts) = .ok bindings) {line : Statement}
    (hline : line ∈ bindings) : line.declared? = none ∧ line.named? = none ∧
      ∀ symbol ∈ line.symbols, symbol ∈ policy.boundSymbols := by
  obtain ⟨d, hd, hbinding⟩ := exists_of_mem_mapM h hline
  obtain ⟨literal, remark, rfl, -, -, hvalue⟩ := d.exists_of_binding hbinding
  have hliteral : literal.Over (· ∈ policy.boundSymbols) := by
    rcases hvalue with ⟨-, rfl⟩ | ⟨value, -, hliteral⟩
    · exact SExpr.over_atom (Or.inl .placeholder)
    · exact (Value.over_literal hliteral).1
  have hfact : (SExpr.atom d.fact).Over (· ∈ policy.boundSymbols) :=
    SExpr.over_atom (Or.inr (List.mem_append_left _ (List.mem_map_of_mem hd)))
  refine ⟨rfl, rfl, fun symbol hsymbol => Statement.of_mem_symbols ?_ hsymbol⟩
  rintro e ⟨⟩
  exact SExpr.over_apply (by decide)
    (List.forall_mem_cons.mpr ⟨hfact, List.forall_mem_singleton.mpr hliteral⟩)

/-- The lines before the bindings are remarks and declarations. -/
theorem of_mem_opening {line : Statement} (h : line ∈ policy.opening) :
    (∃ remark ∈ ["declarations", "bindings"], line = .comment remark) ∨ line = policy.header ∨
      ∃ symbol sort, line = .declare symbol sort := by
  simp only [opening, declarations, List.mem_cons, List.mem_append, List.mem_map,
    List.not_mem_nil, or_false] at h
  rcases h with (rfl | rfl | ⟨d, -, rfl⟩ | ⟨fact, -, rfl⟩) | rfl
  · exact Or.inr (Or.inl rfl)
  · exact Or.inl ⟨_, by simp, rfl⟩
  · exact Or.inr (Or.inr ⟨_, _, rfl⟩)
  · exact Or.inr (Or.inr ⟨_, _, rfl⟩)
  · exact Or.inl ⟨_, by simp, rfl⟩

theorem declared_opening : Program.declared policy.opening = policy.boundSymbols := by
  simp [Program.declared, opening, header, declarations, boundSymbols, List.filterMap_cons,
    List.filterMap_map, Function.comp_def, Statement.declared?]

theorem declared_ending : Program.declared (policy.ending facts) =
    policy.actions.map fun action => pickSymbol action.name := by
  have hactions : (policy.actions.flatMap policy.actionLines).filterMap Statement.declared? =
      policy.actions.map fun action => pickSymbol action.name := by
    simp [List.filterMap_flatMap, actionLines, List.filterMap_cons, Statement.declared?,
      ← List.map_eq_flatMap]
  simp [Program.declared, ending, knownBindings, invariantAssertion, List.filterMap_cons,
    List.filterMap_map, Function.comp_def, Statement.declared?, hactions]

theorem bound_ending : Program.bound (policy.ending facts) =
    policy.knownFacts.map knownSymbol := by
  simp [Program.bound, ending, knownBindings, invariantAssertion, List.filterMap_flatMap,
    actionLines, List.filterMap_cons, List.filterMap_map, Function.comp_def, Statement.bound?]

theorem assertions_ending : Program.assertions (policy.ending facts) =
    policy.invariants.map policy.invariantEntry ++ policy.actions.map policy.actionEntry := by
  have hactions : (policy.actions.flatMap policy.actionLines).filterMap Statement.named? =
      policy.actions.map policy.actionEntry := by
    simp [List.filterMap_flatMap, actionLines, actionEntry, List.filterMap_cons, Statement.named?,
      List.map_eq_flatMap]
  simp [Program.assertions, ending, knownBindings, invariantAssertion, invariantEntry,
    List.filterMap_cons, List.filterMap_map, Function.comp_def, Statement.named?, hactions]

theorem declared_program (h : policy.program facts = .ok program) : Program.declared program =
    policy.boundSymbols ++ policy.actions.map fun action => pickSymbol action.name := by
  obtain ⟨bindings, hbindings, rfl⟩ := exists_bindings h
  have hnone : Program.declared bindings = [] :=
    List.filterMap_eq_nil_iff.mpr fun line hline => (of_mem_bindings hbindings hline).1
  rw [Program.declared_append, Program.declared_append, declared_opening, hnone, declared_ending,
    List.nil_append]

theorem bound_program (h : policy.program facts = .ok program) :
    Program.bound program = policy.boundSymbols := by
  obtain ⟨bindings, hbindings, rfl⟩ := exists_bindings h
  have hnone : Program.bound policy.opening = [] := by
    simp [Program.bound, opening, header, declarations, List.filterMap_cons, List.filterMap_map,
      Function.comp_def, Statement.bound?]
  have happend : ∀ program rest : Program,
      Program.bound (program ++ rest) = Program.bound program ++ Program.bound rest :=
    fun _ _ => List.filterMap_append
  rw [happend, happend, hnone, bound_bindings hbindings, bound_ending, List.nil_append,
    boundSymbols]

theorem assertions_program (h : policy.program facts = .ok program) : Program.assertions program =
    policy.invariants.map policy.invariantEntry ++ policy.actions.map policy.actionEntry := by
  obtain ⟨bindings, hbindings, rfl⟩ := exists_bindings h
  have hnone : Program.assertions policy.opening = [] := by
    simp [Program.assertions, opening, header, declarations, List.filterMap_cons,
      List.filterMap_map, Function.comp_def, Statement.named?]
  have hnone' : Program.assertions bindings = [] :=
    List.filterMap_eq_nil_iff.mpr fun line hline => (of_mem_bindings hbindings hline).2.1
  have happend : ∀ program rest : Program,
      Program.assertions (program ++ rest) = Program.assertions program ++ Program.assertions rest :=
    fun _ _ => List.filterMap_append
  rw [happend, happend, hnone, hnone', assertions_ending, List.nil_append, List.nil_append]

theorem over_condition (h : policy.TellsApart) {clause : Clause}
    (hclause : clause ∈ policy.invariants ++ policy.actions) :
    (policy.expr clause.condition).Over (· ∈ policy.boundSymbols) :=
  over_expr (fun fact hfact => mem_boundSymbols_fact (h.mentions clause hclause fact hfact))
    fun _ hfact => mem_boundSymbols_known hclause hfact

/-- The symbol that says whether an action is picked is declared right before the guard. -/
theorem closedAfter_actions {actions : List Clause} {start : List String}
    (h : ∀ action ∈ actions, (policy.expr action.condition).Over (· ∈ start)) :
    Program.ClosedAfter start (actions.flatMap policy.actionLines) := by
  induction actions generalizing start with
  | nil => exact Program.closedAfter_of_forall nofun
  | cons action rest ih =>
    obtain ⟨haction, hrest⟩ := List.forall_mem_cons.mp h
    have hdeclare : Program.ClosedAfter start [.declare (pickSymbol action.name) .bool] :=
      Program.closedAfter_of_forall (List.forall_mem_singleton.mpr nofun)
    have hpick : (SExpr.atom (pickSymbol action.name)).Over
        (· ∈ start ++ [pickSymbol action.name]) :=
      SExpr.over_atom (Or.inr (by simp))
    have hguard : Program.ClosedAfter (start ++ [pickSymbol action.name])
        [.assertion action.name (policy.actionEntry action).2] := by
      refine Program.closedAfter_of_forall (List.forall_mem_singleton.mpr fun symbol hsymbol => ?_)
      refine Statement.of_mem_symbols ?_ hsymbol
      rintro e ⟨⟩
      exact SExpr.over_apply (by decide) (List.forall_mem_cons.mpr ⟨hpick,
        List.forall_mem_singleton.mpr (haction.mono fun _ => List.mem_append_left _)⟩)
    have hnext := ih fun action' haction' =>
      (hrest action' haction').mono fun _ => List.mem_append_left [pickSymbol action.name]
    rw [List.flatMap_cons]
    exact (hdeclare.append hguard).append hnext

theorem closedAfter_ending (h : policy.TellsApart) :
    Program.ClosedAfter policy.boundSymbols (policy.ending facts) := by
  have hknown : Program.ClosedAfter policy.boundSymbols (policy.knownBindings facts) := by
    refine Program.closedAfter_of_forall fun line hline symbol hsymbol => ?_
    obtain ⟨fact, hfact, rfl⟩ := List.mem_map.mp hline
    have hsymbol' : (SExpr.atom (knownSymbol fact)).Over (· ∈ policy.boundSymbols) :=
      SExpr.over_atom (Or.inr (List.mem_append_right _ (List.mem_map_of_mem hfact)))
    refine Statement.of_mem_symbols ?_ hsymbol
    rintro e ⟨⟩
    exact SExpr.over_apply (by decide) (List.forall_mem_cons.mpr ⟨hsymbol',
      List.forall_mem_singleton.mpr (SExpr.over_atom (Or.inl (.truth _)))⟩)
  have hinvariants : Program.ClosedAfter policy.boundSymbols
      (.comment "invariants" :: policy.invariants.map policy.invariantAssertion) := by
    refine Program.closedAfter_of_forall (List.forall_mem_cons.mpr ⟨nofun, fun line hline => ?_⟩)
    obtain ⟨clause, hclause, rfl⟩ := List.mem_map.mp hline
    intro symbol hsymbol
    refine Statement.of_mem_symbols ?_ hsymbol
    rintro e ⟨⟩
    exact over_condition h (List.mem_append_left _ hclause)
  have hactions : Program.ClosedAfter policy.boundSymbols
      (.comment "actions" :: policy.actions.flatMap policy.actionLines) := by
    have hcomment : Program.ClosedAfter policy.boundSymbols [.comment "actions"] :=
      Program.closedAfter_of_forall (List.forall_mem_singleton.mpr nofun)
    refine hcomment.append (closedAfter_actions fun action haction => ?_)
    exact (over_condition h (List.mem_append_right _ haction)).mono
      fun _ => List.mem_append_left _
  have hnone : Program.declared (policy.knownBindings facts) = [] ∧ Program.declared
      (.comment "invariants" :: policy.invariants.map policy.invariantAssertion) = [] := by
    simp [Program.declared, knownBindings, invariantAssertion, List.filterMap_cons,
      List.filterMap_map, Function.comp_def, Statement.declared?]
  refine (hknown.append ?_).append ?_
  · rwa [hnone.1, List.append_nil]
  · rwa [Program.declared_append, hnone.1, hnone.2, List.append_nil, List.append_nil]

theorem closedAfter_program (h : policy.TellsApart) (hprogram : policy.program facts = .ok program) :
    Program.ClosedAfter [] program := by
  obtain ⟨bindings, hbindings, rfl⟩ := exists_bindings hprogram
  have hopening : Program.ClosedAfter [] policy.opening := by
    refine Program.closedAfter_of_forall fun line hline => ?_
    have hnone : line.symbols = [] := by
      rcases of_mem_opening hline with ⟨remark, -, rfl⟩ | rfl | ⟨symbol, sort, rfl⟩ <;> rfl
    rw [hnone]
    exact nofun
  have hmiddle : Program.ClosedAfter policy.boundSymbols bindings :=
    Program.closedAfter_of_forall fun line hline => (of_mem_bindings hbindings hline).2.2
  have hnone : Program.declared bindings = [] :=
    List.filterMap_eq_nil_iff.mpr fun line hline => (of_mem_bindings hbindings hline).1
  refine hopening.append ?_
  rw [declared_opening, List.nil_append]
  refine hmiddle.append ?_
  rw [hnone, List.append_nil]
  exact closedAfter_ending h

/-- The program has all its lines: each symbol that a line uses is declared on one line, before that
one; each declared fact is bound on one line, and so is the symbol of each fact that some part of a
condition wants to be known; and the invariants and the guards are asserted in their order. -/
structure IsComplete (policy : Policy) (program : Program) : Prop where
  used : ∀ before line after, program = before ++ line :: after → ∀ symbol ∈ line.symbols,
    (Program.declared program).count symbol = 1 ∧ symbol ∈ Program.declared before
  facts : ∀ d ∈ policy.facts, (Program.bound program).count d.fact = 1
  known : ∀ clause ∈ policy.invariants ++ policy.actions, ∀ names,
    clause.condition.Part (.known names) → ∀ fact ∈ names,
      (Program.bound program).count (knownSymbol fact) = 1
  asserted : Program.assertions program =
    policy.invariants.map policy.invariantEntry ++ policy.actions.map policy.actionEntry
  /-- So it is on the lines of the text. -/
  readable : policy.WordNames → Program.read? program.text = some program

theorem isComplete_program (h : policy.TellsApart) (hprogram : policy.program facts = .ok program) :
    policy.IsComplete program where
  used before line after heq symbol hsymbol := by
    have hbefore : symbol ∈ Program.declared before :=
      closedAfter_program h hprogram before line after heq symbol hsymbol
    have hnodup : (Program.declared program).Nodup := declared_program hprogram ▸ h.nodup_symbols
    refine ⟨List.count_eq_one_of_mem hnodup ?_, hbefore⟩
    rw [heq, Program.declared_append]
    exact List.mem_append_left _ hbefore
  facts d hd := by
    rw [bound_program hprogram]
    exact List.count_eq_one_of_mem h.nodup_boundSymbols
      (List.mem_append_left _ (List.mem_map_of_mem hd))
  known clause hclause names hpart fact hfact := by
    rw [bound_program hprogram]
    exact List.count_eq_one_of_mem h.nodup_boundSymbols
      (mem_boundSymbols_known hclause (Predicate.mem_knownMentions_iff.mpr ⟨names, hpart, hfact⟩))
  asserted := assertions_program hprogram
  readable hwords := Program.read?_text (hwords.isPlain_of_mem hprogram)

end Policy

/-- A policy whose names can be told apart has a closed and complete program over all facts but
those of which one has a value that does not suit its sort. Then the first such is named. -/
theorem program_closed_and_complete {policy : Policy} (h : policy.TellsApart) (facts : FactSet) :
    (∀ e, policy.program facts = .error e ↔
      policy.facts.findSome? (fun d => d.mismatch? facts) = some e) ∧
      ∀ program, policy.program facts = .ok program → policy.IsComplete program :=
  ⟨fun _ => Policy.program_eq_error_iff, fun _ => Policy.isComplete_program h⟩

/-- A policy that wants the same facts to be known in several places. -/
def Policy.sharedKnowledge : Policy where
  id := "shared-knowledge"
  domain := .authorization
  facts := [⟨"amount", .real⟩, ⟨"count", .int⟩, ⟨"flagged", .bool⟩]
  invariants :=
    [⟨"some-open", .not (.any [.known ["count", "amount"], .known ["amount", "count"]])⟩,
      ⟨"counted", .implies (.known ["count"]) (.compare (.fact "count") .ge (.int 1))⟩]
  actions := [⟨"release", .all [.flag "flagged", .known ["amount"]]⟩]
  rule := .approveIfSatisfiable

/-- The facts with one value that is written and two that are not. -/
def FactSet.counted : FactSet := .ofOptions [("count", some (.int 2))]

/-- Neither value suits its sort. -/
def FactSet.mistyped : FactSet :=
  .ofOptions [("flagged", some (.int 2)), ("count", some (.bool true))]

/-- Of several values that do not suit their sorts, that of the fact which is declared first is
named. -/
theorem program_closed_and_complete_sharedKnowledge :
    (∃ program, Policy.sharedKnowledge.program .counted = .ok program ∧
      Policy.sharedKnowledge.IsComplete program) ∧
      Policy.sharedKnowledge.program .mistyped = .error ⟨"count", .int, .bool⟩ := by
  have h : Policy.sharedKnowledge.TellsApart := ⟨by decide, by decide, by decide, by decide⟩
  obtain ⟨program, hprogram⟩ : ∃ program, Policy.sharedKnowledge.program .counted = .ok program :=
    ⟨_, rfl⟩
  refine ⟨⟨program, hprogram, (program_closed_and_complete h _).2 program hprogram⟩, ?_⟩
  exact ((program_closed_and_complete h _).1 _).mpr (by decide)

end Verdict
