import Verdict.Proofs.ExplanationText
import Verdict.Proofs.KeyOrder
import Verdict.Proofs.ProgramClosed
import Verdict.Proofs.ProposalCheck
import Verdict.Proofs.Replay

/-!
# The parts of a report agree

The judgement, the explanation, the proof program and the facts of a report are made one after the
other from the same record. They agree: each name that the judgement gives is asserted once in the
program, the explanation marks the names of the core, and the model is what is known of the facts.
-/

namespace Verdict

/-! ## Sections of a program -/

/-- The text of a line that is only a remark. -/
def Statement.heading? : Statement → Option String
  | comment remark => some remark
  | _ => none

/-- The lines after a heading, up to the next remark. -/
def Program.under (heading : String) (program : Program) : Program :=
  ((program.dropWhile fun line => line.heading? != some heading).drop 1).takeWhile
    fun line => line.heading?.isNone

/-- The names that are asserted, one entry for each assertion. -/
def Program.assertedNames (program : Program) : List String :=
  program.assertions.map (·.1)

theorem Program.under_append {before lines rest : Program} {heading next : String}
    (hbefore : ∀ line ∈ before, line.heading? ≠ some heading)
    (hlines : ∀ line ∈ lines, line.heading? = none) :
    under heading (before ++ (.comment heading :: (lines ++ .comment next :: rest))) = lines := by
  have hdrop : (before ++ (.comment heading :: (lines ++ .comment next :: rest))).dropWhile
      (fun line => line.heading? != some heading) =
        .comment heading :: (lines ++ .comment next :: rest) := by
    rw [List.dropWhile_append_of_pos fun line hline => by simpa using hbefore line hline,
      List.dropWhile_cons_of_neg (by simp [Statement.heading?])]
  rw [under, hdrop, List.drop_one, List.tail_cons,
    List.takeWhile_append_of_pos fun line hline => by simp [hlines line hline],
    List.takeWhile_cons_of_neg (by simp [Statement.heading?]), List.append_nil]

namespace Policy

variable {policy : Policy} {facts : FactSet} {program : Program}

/-- The invariants are all that stands under their heading. -/
theorem under_invariants (h : policy.program facts = .ok program) :
    Program.under "invariants" program = policy.invariants.map policy.invariantAssertion := by
  obtain ⟨bindings, hbindings, rfl⟩ := exists_bindings h
  -- Whatever the policy is called, the first line begins with another letter.
  have hheader : policy.header.heading? ≠ some "invariants" := by
    intro heq
    have hlist := congrArg String.toList (Option.some.inj heq)
    simp only [String.toList_append] at hlist
    exact absurd (List.cons.inj hlist).1 (by decide)
  have hbefore : ∀ line ∈ policy.opening ++ (bindings ++ policy.knownBindings facts),
      line.heading? ≠ some "invariants" := by
    intro line hline
    rcases List.mem_append.mp hline with hline | hline
    · rcases of_mem_opening hline with ⟨remark, hremark, rfl⟩ | rfl | ⟨symbol, sort, rfl⟩
      · rintro ⟨⟩
        exact absurd hremark (by decide)
      · exact hheader
      · exact nofun
    rcases List.mem_append.mp hline with hline | hline
    · obtain ⟨d, -, hbinding⟩ := exists_of_mem_mapM hbindings hline
      obtain ⟨literal, remark, rfl, -⟩ := d.exists_of_binding hbinding
      exact nofun
    · obtain ⟨fact, -, rfl⟩ := List.mem_map.mp hline
      exact nofun
  have hlines : ∀ line ∈ policy.invariants.map policy.invariantAssertion, line.heading? = none := by
    intro line hline
    obtain ⟨clause, -, rfl⟩ := List.mem_map.mp hline
    rfl
  have hprogram : policy.opening ++ (bindings ++ policy.ending facts) =
      policy.opening ++ (bindings ++ policy.knownBindings facts) ++
        (.comment "invariants" :: (policy.invariants.map policy.invariantAssertion ++
          .comment "actions" :: policy.actions.flatMap policy.actionLines)) := by
    simp only [ending, List.append_assoc, List.cons_append]
  rw [hprogram, Program.under_append hbefore hlines]

theorem assertedNames_invariants (h : policy.program facts = .ok program) :
    (Program.under "invariants" program).assertedNames = policy.invariantNames := by
  rw [under_invariants h, invariantNames, Program.assertedNames, Program.assertions,
    List.filterMap_map, List.map_filterMap]
  simp [invariantAssertion, Statement.named?]

theorem assertedNames_program (h : policy.program facts = .ok program) :
    program.assertedNames = (policy.invariants ++ policy.actions).map (·.name) := by
  rw [Program.assertedNames, assertions_program h, List.map_append, List.map_append, List.map_map,
    List.map_map]
  rfl

end Policy

/-! ## Judgements -/

/-- The choice is an action of the policy, if that is true of the decision made otherwise. -/
theorem Policy.mem_actionNames_of_choose {policy : Policy} {facts : FactSet} {name : String}
    (h : ∀ otherwise, policy.rule = .firstMatch otherwise →
      otherwise.name ∈ policy.actions.map (·.name))
    (hname : (policy.choose facts).action = some name) :
    name ∈ policy.actions.map (·.name) := by
  unfold choose at hname
  split at hname
  · rename_i otherwise hrule
    obtain rfl := Option.some.inj hname
    rw [selectAction, selectFirst_fst]
    cases hfound : policy.actions.find? fun clause => clause.condition.holds facts with
    | none => exact h otherwise hrule
    | some clause => exact List.mem_map_of_mem (List.mem_of_find?_eq_some hfound)
  · split at hname <;> cases hname
  · cases hname

theorem Domain.otherwise_mem_actionNames (d : Domain) (otherwise : Decision)
    (h : d.policy.rule = .firstMatch otherwise) :
    otherwise.name ∈ d.policy.actions.map (·.name) := by
  cases d with
  | authorization =>
    cases h
    decide
  | dispute | creditLineIncrease => cases h

namespace FactRecord

variable {r : FactRecord} {mode : Mode}

theorem judge_satisfiable_iff :
    (r.judge mode).1.satisfiable = true ↔ (r.judge mode).1.unsatCore = [] := by
  rcases r.judge_cases mode with hjudge | ⟨f, -, hjudge⟩
  · rw [hjudge]
    exact List.isEmpty_iff
  · rw [hjudge]
    exact checkProposal_satisfiable_iff _ _

/-- Where something does not hold, no action is chosen and the fallback is the decision. -/
theorem judge_of_not_satisfiable (h : (r.judge mode).1.satisfiable = false) :
    (r.judge mode).1.decision = r.domain.policy.fallback ∧
      (r.judge mode).1.chosenAction = none := by
  rcases r.judge_cases mode with hjudge | ⟨f, rfl, hjudge⟩
  · rw [hjudge] at h ⊢
    have hnot : r.domain.policy.isSatisfied r.known = false :=
      (Policy.verify_satisfiable _ _).symm.trans h
    constructor
    · exact (Policy.verify_decision _ _).trans (by rw [hnot]; rfl)
    · exact (Policy.verify_chosenAction _ _).trans (by rw [hnot]; rfl)
  · rw [hjudge] at h ⊢
    rw [checkProposal_decision, checkProposal_chosenAction, h]
    exact ⟨rfl, rfl⟩

/-- In both modes the invariants are checked in their order. -/
theorem judge_checkedInvariants :
    (r.judge mode).1.checkedInvariants = r.domain.policy.invariantNames ∧
      (r.judge mode).1.trace.map (·.name) = r.domain.policy.invariantNames := by
  have htrace : r.verify.trace.map (·.name) = r.domain.policy.invariantNames := by
    have hcheck : r.verify.trace = r.domain.policy.invariants.map (·.outcome r.known) := rfl
    rw [hcheck, List.map_map, Policy.invariantNames]
    simp [Function.comp_def]
  rcases r.judge_cases mode with hjudge | ⟨f, rfl, hjudge⟩
  · rw [hjudge]
    exact ⟨rfl, htrace⟩
  · rw [hjudge, checkProposal_trace]
    exact ⟨rfl, htrace⟩

/-- Whoever chooses the action, it is one of the policy. -/
theorem mem_actionNames_of_judge {name : String}
    (h : (r.judge mode).1.chosenAction = some name) :
    name ∈ r.domain.policy.actions.map (·.name) := by
  rcases r.judge_cases mode with hjudge | ⟨f, rfl, hjudge⟩
  · have hverify : (r.domain.policy.verify r.known).chosenAction = some name :=
      (congrArg Verification.chosenAction hjudge).symm.trans h
    rw [Policy.verify_chosenAction] at hverify
    split at hverify
    · exact Policy.mem_actionNames_of_choose r.domain.otherwise_mem_actionNames hverify
    · cases hverify
  · rw [hjudge, checkProposal_chosenAction] at h
    split at h
    · obtain rfl := Option.some.inj h
      obtain ⟨clause, hfound⟩ := Option.isSome_iff_exists.mp f.isSome_action_runSoft
      exact List.mem_map.mpr
        ⟨clause, List.mem_of_find?_eq_some hfound, by simpa using List.find?_some hfound⟩
    · cases h

/-- Each name in the core, and the chosen action, is the name of a clause. -/
theorem mem_names_of_judge {name : String}
    (h : name ∈ (r.judge mode).1.unsatCore ++ (r.judge mode).1.chosenAction.toList) :
    name ∈ (r.domain.policy.invariants ++ r.domain.policy.actions).map (·.name) := by
  rcases List.mem_append.mp h with h | h
  · exact (refutes_of_mem_judge h).mem_names
  · rw [List.map_append]
    exact List.mem_append_right _ (mem_actionNames_of_judge (Option.mem_toList.mp h))

end FactRecord

/-! ## Reports -/

/-- The parts of a report agree with one another, and with the policy of its domain. -/
structure Report.Consistent (report : Report) (policy : Policy) : Prop where
  satisfiable : report.satisfiable = true ↔ report.unsatCore = []
  rejected : report.satisfiable = false →
    report.decision = policy.fallback ∧ report.chosenAction = none ∧ report.model = .empty
  model : report.satisfiable = true → ∃ members, report.facts = .object members ∧
    report.model.toMembers = members.filter fun member => !member.2.isNull
  checked : report.checkedInvariants = policy.invariantNames
  traced : report.trace.map (·.name) = report.checkedInvariants
  stated : (report.program.under "invariants").assertedNames = report.checkedInvariants
  asserted : ∀ name ∈ report.unsatCore ++ report.chosenAction.toList,
    report.program.assertedNames.count name = 1
  explained : report.satisfiable = false → backQuoted report.explanation.text = report.unsatCore
  /-- What is said of the program holds of its text. -/
  readable : Program.read? report.program.text = some report.program

theorem FactRecord.consistent_decide {r : FactRecord} {mode : Mode} {report : Report}
    (h : r.decide mode = .ok report) : report.Consistent r.domain.policy := by
  obtain ⟨program, hprogram⟩ := r.exists_program
  rw [decide, hprogram] at h
  cases h
  refine
    { satisfiable := judge_satisfiable_iff
      rejected := fun hsat => ?_
      model := fun hsat => ⟨r.members, rfl, ?_⟩
      checked := judge_checkedInvariants.1
      traced := judge_checkedInvariants.2.trans judge_checkedInvariants.1.symm
      stated := (Policy.assertedNames_invariants hprogram).trans judge_checkedInvariants.1.symm
      asserted := fun name hname => ?_
      explained := fun hsat => ?_
      readable := Program.read?_text (r.domain.wordNames_policy.isPlain_of_mem hprogram) }
  · have hsat : (r.judge mode).1.satisfiable = false := hsat
    obtain ⟨hdecision, haction⟩ := judge_of_not_satisfiable hsat
    exact ⟨hdecision, haction, if_neg (Bool.eq_false_iff.mp hsat)⟩
  · have hsat : (r.judge mode).1.satisfiable = true := hsat
    have hmodel : (if (r.judge mode).1.satisfiable then r.known else .empty) = r.known := if_pos hsat
    exact (congrArg FactSet.toMembers hmodel).trans r.toMembers_known
  · have hnames : Program.assertedNames program =
        (r.domain.policy.invariants ++ r.domain.policy.actions).map (·.name) :=
      Policy.assertedNames_program hprogram
    have hnodup : (Program.assertedNames program).Nodup := hnames ▸ r.domain.nodup_names
    exact List.count_eq_one_of_mem hnodup (hnames ▸ mem_names_of_judge hname)
  · have hsat : (r.judge mode).1.satisfiable = false := hsat
    have hexplained : r.domain.explain (r.judge mode).1.decision r (r.judge mode).1.satisfiable
        (r.judge mode).1.unsatCore = .violated r.domain
          ((r.judge mode).1.unsatCore.map (r.domain.policy.violation r.known)) := by
      rw [hsat]
      rfl
    refine (congrArg (fun e : Explanation => backQuoted e.text) hexplained).trans ?_
    exact Domain.backQuoted_violated fun name => refutes_of_mem_judge

/-- The parts of every report on a request for a known domain agree. -/
theorem report_parts_agree {name : String} {domain : Domain}
    (hdomain : Domain.ofName? name = some domain) {facts : Json} {mode : Mode} {report : Report}
    (h : decideRequest name facts mode = .ok report) : report.Consistent domain.policy := by
  rcases decideRequest_cases h with ⟨hnone, -⟩ | ⟨r, ⟨d, hd, hassembled⟩, hdecide⟩
  · rw [hdomain] at hnone
    cases hnone
  · obtain rfl : domain = d := Option.some.inj (hdomain.symm.trans hd)
    obtain ⟨rfl, -⟩ := FactRecord.reassembled_of_assemble hassembled
    exact FactRecord.consistent_decide hdecide

/-- The suggestion for a hasty payment is to decline it. As the amount is not known, the guard of
that action faults, and its name is the last in the core. -/
theorem report_parts_agree_hastyPayment :
    Domain.ofName? " Auth" = some .authorization ∧
      ∃ report, decideRequest " Auth" (FactRecord.authorization hastyPayment).toJson .soft =
          .ok report ∧
        report.unsatCore = ["limit_ok", "velocity_cap", "decline"] ∧
        report.Consistent Policy.authorization ∧
        backQuoted report.explanation.text = ["limit_ok", "velocity_cap", "decline"] := by
  have hdomain : Domain.ofName? " Auth" = some .authorization := by decide +kernel
  have hdecided : (FactRecord.authorization hastyPayment).plain.DecidedOn " Auth"
      (FactRecord.authorization hastyPayment).toJson :=
    ⟨.authorization, hdomain, FactRecord.assemble_toJson rfl⟩
  obtain ⟨report, hdecide, hsat, hcore, -⟩ :=
    (FactRecord.authorization hastyPayment).plain.exists_explanation .soft
  have hreport := (hdecided.decideRequest_eq .soft).trans hdecide
  have hagree : report.Consistent Policy.authorization := report_parts_agree hdomain hreport
  have hcore' : report.unsatCore = ["limit_ok", "velocity_cap", "decline"] := by
    rw [hcore]
    decide +kernel
  refine ⟨hdomain, report, hreport, hcore', hagree, ?_⟩
  rw [← hcore']
  refine hagree.explained (Bool.eq_false_iff.mpr fun htrue => ?_)
  rw [hagree.satisfiable.mp htrue] at hcore'
  cases hcore'

end Verdict
