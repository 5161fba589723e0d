import Verdict.Proofs.CommandArguments
import Verdict.Proofs.PrintedAnswers

/-!
# Status and streams of the command

The status of an invocation tells whether its task succeeds: the facts are a document, the domain
and the replacement make sense, and the request has a result. How the answer is printed has no part
in it. An answer goes to the output and a failure to the error stream, never both; a request for an
unknown domain has an answer although it does not succeed.
-/

namespace Verdict.Command

/-! ## Success -/

/-- The facts in a source, if it can be read and holds a document. -/
def Content.document? : Content → Option Json
  | .text document _ => Json.parse? document
  | .unreadable _ => none

/-- Whatever the task needs is there, and its request has a result. -/
def Task.Succeeds (content : Content) : Task → Prop
  | verify name _ mode =>
    ∃ facts d report, content.document? = some facts ∧ Domain.ofName? name = some d ∧
      decideRequest name facts mode = .ok report
  | program name _ =>
    ∃ d facts record program, Domain.ofName? name = some d ∧ content.document? = some facts ∧
      FactRecord.assemble d facts = .ok record ∧ record.program = .ok program
  | probe name _ flip mode =>
    ∃ d field value facts record unchanged, Domain.ofName? name = some d ∧
      parseFlip? flip = some (field, value) ∧ content.document? = some facts ∧
      FactRecord.assemble d facts = .ok record ∧
      record.unchangedBy field value mode = .ok unchanged
  | policy name => ∃ d, Domain.ofName? name = some d

/-- A document is to be decided under a name that no domain has. -/
def Task.Misnames (content : Content) : Task → Prop
  | verify name _ _ => content.document?.isSome ∧ Domain.ofName? name = none
  | _ => False

variable {content : Content} {task : Task} {name path : String} {mode : Mode} {facts : Json}

theorem readFacts_eq_ok_iff : readFacts path content = .ok facts ↔ content.document? = some facts := by
  cases content with
  | unreadable reason => simp [readFacts, Content.document?]
  | text text complaint =>
    rw [readFacts, Content.document?]
    split <;> simp_all

theorem findDomain_eq_ok_iff {d : Domain} : findDomain name = .ok d ↔ Domain.ofName? name = some d := by
  rw [findDomain]
  split <;> simp_all

/-- The report on a request has an error only if the domain is unknown. -/
theorem error_of_decideRequest {d : Domain} {report : Report} (hname : Domain.ofName? name = some d)
    (h : decideRequest name facts mode = .ok report) : report.error = none := by
  rw [decideRequest, hname] at h
  obtain ⟨record, -, h⟩ := exists_of_bind_eq_ok h
  obtain ⟨program, -, h⟩ := exists_of_bind_eq_ok h
  cases h
  rfl

namespace Task

theorem Succeeds.not_misnames (h : task.Succeeds content) : ¬task.Misnames content := by
  cases task with
  | verify name path mode =>
    obtain ⟨facts, d, report, -, hname, -⟩ := h
    rintro ⟨-, hnone⟩
    rw [hname] at hnone
    cases hnone
  | program | probe | policy => exact not_false

theorem exists_run_of_succeeds (h : task.Succeeds content) :
    ∃ answer, task.run content = .ok answer ∧ answer.status = 0 := by
  cases task with
  | verify name path mode =>
    obtain ⟨facts, d, report, hfacts, hname, hreport⟩ := h
    rw [run, readFacts_eq_ok_iff.mpr hfacts, bind_ok, hreport]
    refine ⟨_, rfl, ?_⟩
    rw [Answer.status, error_of_decideRequest hname hreport]
    rfl
  | program name path =>
    obtain ⟨d, facts, record, program, hname, hfacts, hrecord, hprogram⟩ := h
    rw [run, findDomain_eq_ok_iff.mpr hname, bind_ok, readFacts_eq_ok_iff.mpr hfacts, bind_ok, hrecord,
      mapError_ok, bind_ok, hprogram]
    exact ⟨_, rfl, rfl⟩
  | probe name path flip mode =>
    obtain ⟨d, field, value, facts, record, unchanged, hname, hflip, hfacts, hrecord, hunchanged⟩ := h
    rw [run, findDomain_eq_ok_iff.mpr hname, bind_ok, hflip]
    simp only []
    rw [readFacts_eq_ok_iff.mpr hfacts, bind_ok, hrecord, mapError_ok, bind_ok, hunchanged]
    exact ⟨_, rfl, rfl⟩
  | policy name =>
    obtain ⟨d, hname⟩ := h
    rw [run, findDomain_eq_ok_iff.mpr hname]
    exact ⟨_, rfl, rfl⟩

/-- A document under an unknown name has an answer. -/
theorem run_of_misnames (h : task.Misnames content) :
    ∃ name path mode, task = .verify name path mode ∧
      task.run content = .ok (.report (.unknownDomain name mode)) := by
  cases task with
  | verify name path mode =>
    obtain ⟨hfacts, hname⟩ := h
    obtain ⟨facts, hfacts⟩ := Option.isSome_iff_exists.mp hfacts
    rw [run, readFacts_eq_ok_iff.mpr hfacts, bind_ok, decideRequest, hname]
    exact ⟨name, path, mode, rfl, rfl⟩
  | program | probe | policy => exact h.elim

/-- There is no other answer. -/
theorem succeeds_or_misnames {answer : Answer} (h : task.run content = .ok answer) :
    task.Succeeds content ∨ task.Misnames content := by
  cases task with
  | verify name path mode =>
    obtain ⟨facts, hfacts, h⟩ := exists_of_bind_eq_ok h
    obtain ⟨report, hreport, -⟩ := exists_of_bind_eq_ok h
    rw [readFacts_eq_ok_iff] at hfacts
    rw [mapError_eq_ok_iff] at hreport
    cases hname : Domain.ofName? name with
    | none => exact .inr ⟨Option.isSome_iff_exists.mpr ⟨facts, hfacts⟩, hname⟩
    | some d => exact .inl ⟨facts, d, report, hfacts, hname, hreport⟩
  | program name path =>
    obtain ⟨d, hname, h⟩ := exists_of_bind_eq_ok h
    obtain ⟨facts, hfacts, h⟩ := exists_of_bind_eq_ok h
    obtain ⟨record, hrecord, h⟩ := exists_of_bind_eq_ok h
    obtain ⟨program, hprogram, -⟩ := exists_of_bind_eq_ok h
    exact .inl ⟨d, facts, record, program, findDomain_eq_ok_iff.mp hname,
      readFacts_eq_ok_iff.mp hfacts, mapError_eq_ok_iff.mp hrecord, mapError_eq_ok_iff.mp hprogram⟩
  | probe name path flip mode =>
    obtain ⟨d, hname, h⟩ := exists_of_bind_eq_ok h
    split at h
    · cases h
    · rename_i field value hflip
      obtain ⟨facts, hfacts, h⟩ := exists_of_bind_eq_ok h
      obtain ⟨record, hrecord, h⟩ := exists_of_bind_eq_ok h
      obtain ⟨unchanged, hunchanged, -⟩ := exists_of_bind_eq_ok h
      exact .inl ⟨d, field, value, facts, record, unchanged, findDomain_eq_ok_iff.mp hname, hflip,
        readFacts_eq_ok_iff.mp hfacts, mapError_eq_ok_iff.mp hrecord,
        mapError_eq_ok_iff.mp hunchanged⟩
  | policy name =>
    obtain ⟨d, hname, -⟩ := exists_of_bind_eq_ok h
    exact .inl ⟨d, findDomain_eq_ok_iff.mp hname⟩

end Task

/-! ## Responses -/

/-- What the caller of an invocation can rely on. -/
structure Invocation.Reported (i : Invocation) (content : Content) : Prop where
  status_eq_zero_iff : (i.respond content).status = 0 ↔ i.task.Succeeds content
  status_le_one : (i.respond content).status ≤ 1
  quiet : i.quiet = true →
    (i.respond content).stdout = "" ∧ (i.respond content).stderr i.format = ""
  /-- The answer is printed, and nothing is reported. -/
  succeeded : i.quiet = false → i.task.Succeeds content →
    ∃ answer, i.task.run content = .ok answer ∧
      answer.WrittenAs (i.respond content).stdout i.format ∧
      (i.respond content).stderr i.format = ""
  /-- The report on an unknown domain is printed all the same. -/
  misnamed : i.quiet = false → i.task.Misnames content →
    ∃ name path mode, i.task = .verify name path mode ∧
      (Answer.report (.unknownDomain name mode)).WrittenAs (i.respond content).stdout i.format ∧
      (i.respond content).stderr i.format = ""
  /-- One failure is reported as an error, and nothing is printed. -/
  failed : i.quiet = false → ¬i.task.Succeeds content → ¬i.task.Misnames content →
    ∃ failure, i.task.run content = .error failure ∧ (i.respond content).stdout = "" ∧
      failure.WrittenAs ((i.respond content).stderr i.format) i.format ∧
      "error: ".toList <+: failure.message.toList

namespace Invocation

variable {i : Invocation}

theorem respond_ok {answer : Answer} (h : i.task.run content = .ok answer) :
    i.respond content =
      ⟨answer.status, if i.quiet then "" else answer.print i.format, none⟩ := by
  rw [respond, h]

theorem respond_error {failure : Failure} (h : i.task.run content = .error failure) :
    i.respond content = ⟨1, "", if i.quiet then none else some failure⟩ := by
  rw [respond, h]

/-- An answer that is not kept back is on the output, and only there. -/
theorem written_answer {answer : Answer} (h : i.task.run content = .ok answer)
    (hquiet : i.quiet = false) :
    answer.WrittenAs (i.respond content).stdout i.format ∧
      (i.respond content).stderr i.format = "" := by
  rw [respond_ok h, hquiet]
  exact ⟨Task.writtenAs_print h i.format, rfl⟩

/-- A failure that is not kept back is on the error stream, and only there. -/
theorem written_failure {failure : Failure} (h : i.task.run content = .error failure)
    (hquiet : i.quiet = false) :
    (i.respond content).stdout = "" ∧
      failure.WrittenAs ((i.respond content).stderr i.format) i.format := by
  rw [respond_error h, hquiet]
  exact ⟨rfl, failure.writtenAs_errorLine i.format⟩

theorem reported (i : Invocation) (content : Content) : i.Reported content := by
  by_cases hsucceeds : i.task.Succeeds content
  · obtain ⟨answer, hrun, hstatus⟩ := Task.exists_run_of_succeeds hsucceeds
    constructor
    · rw [respond_ok hrun]
      exact iff_of_true hstatus hsucceeds
    · rw [respond_ok hrun]
      exact hstatus ▸ Nat.zero_le 1
    · rw [respond_ok hrun]
      exact fun hquiet => ⟨if_pos hquiet, rfl⟩
    · exact fun hquiet _ => ⟨answer, hrun, written_answer hrun hquiet⟩
    · exact fun _ hmisnames => absurd hmisnames hsucceeds.not_misnames
    · exact fun _ hfails => absurd hsucceeds hfails
  by_cases hmisnames : i.task.Misnames content
  · obtain ⟨name, path, mode, htask, hrun⟩ := Task.run_of_misnames hmisnames
    constructor
    · rw [respond_ok hrun]
      exact iff_of_false Nat.one_ne_zero hsucceeds
    · rw [respond_ok hrun]
      exact Nat.le_refl 1
    · rw [respond_ok hrun]
      exact fun hquiet => ⟨if_pos hquiet, rfl⟩
    · exact fun _ h => absurd h hsucceeds
    · exact fun hquiet _ => ⟨name, path, mode, htask, written_answer hrun hquiet⟩
    · exact fun _ _ h => absurd hmisnames h
  · cases hrun : i.task.run content with
    | ok answer => exact ((Task.succeeds_or_misnames hrun).elim hsucceeds hmisnames).elim
    | error failure =>
      constructor
      · rw [respond_error hrun]
        exact iff_of_false Nat.one_ne_zero hsucceeds
      · rw [respond_error hrun]
      · rw [respond_error hrun]
        exact fun hquiet => ⟨rfl, by rw [hquiet]; rfl⟩
      · exact fun _ h => absurd h hsucceeds
      · exact fun _ h => absurd h hmisnames
      · intro hquiet _ _
        obtain ⟨hstdout, hstderr⟩ := written_failure hrun hquiet
        exact ⟨failure, hrun, hstdout, hstderr, failure.begins_message⟩

end Invocation

/-- Whatever flags say how its answer is printed, a task has the same status, which tells whether it
succeeds, and at most one of the two streams is written to. In the arguments such flags do not change
the task, wherever they stand. -/
theorem reported_whatever_flags :
    (∀ (i : Invocation) (content : Content), i.Reported content) ∧
      (∀ (i j : Invocation) (content : Content), i.task = j.task →
        (i.respond content).status = (j.respond content).status) ∧
      ∀ (flag : Presentation) {before after : List String} {plain shown : Invocation},
        Invocation.ofArguments (before ++ after) = .ok plain →
        Invocation.ofArguments (before ++ (flag.arguments ++ after)) = .ok shown →
        shown.task = plain.task ∧ (flag = .quiet → shown.quiet = true) := by
  refine ⟨Invocation.reported, fun i j content htask => ?_,
    fun flag before after plain shown hplain hshown => task_of_inserted hplain hshown⟩
  have hi := i.reported content
  have hj := j.reported content
  have hzero : (i.respond content).status = 0 ↔ (j.respond content).status = 0 := by
    rw [hi.status_eq_zero_iff, hj.status_eq_zero_iff, htask]
  have hi' := hi.status_le_one
  have hj' := hj.status_le_one
  omega

/-- A request for an unknown domain, with and without the format stated after the domain, and the
policy of that domain, which there is not. -/
theorem reported_whatever_flags_mortgage :
    let plain : Invocation := ⟨.text, false, .verify "mortgage" "-" .hard⟩
    let shown : Invocation := ⟨.json, false, .verify "mortgage" "-" .hard⟩
    let failing : Invocation := ⟨.json, false, .policy "mortgage"⟩
    let content : Content := .text "[]" ""
    Invocation.ofArguments (["verify", "mortgage"] ++ ["--facts", "-"]) = .ok plain ∧
      Invocation.ofArguments
        (["verify", "mortgage"] ++ ((Presentation.output .json).arguments ++ ["--facts", "-"])) =
          .ok shown ∧
      plain.task.Misnames content ∧
      (shown.respond content).status = (plain.respond content).status ∧
      (shown.respond content).stderr .json = "" ∧
      (shown.respond content).stdout ≠ "" ∧
      Json.parse? ((failing.respond content).stderr .json) =
        some (.object [("error", .string "error: unknown domain: mortgage")]) := by
  intro plain shown failing content
  obtain ⟨hreported, hstatus, htask⟩ := reported_whatever_flags
  have hplain : Invocation.ofArguments (["verify", "mortgage"] ++ ["--facts", "-"]) = .ok plain := rfl
  have hshown : Invocation.ofArguments
      (["verify", "mortgage"] ++ ((Presentation.output .json).arguments ++ ["--facts", "-"])) =
        .ok shown := rfl
  have hmisnames : plain.task.Misnames content := ⟨rfl, rfl⟩
  obtain ⟨name, path, mode, -, ⟨-, body, hstdout⟩, hstderr⟩ :=
    (hreported shown content).misnamed rfl hmisnames
  have hfails : ¬failing.task.Succeeds content := by
    rintro ⟨d, hname⟩
    cases hname
  obtain ⟨failure, hrun, -, ⟨hread, -⟩, -⟩ := (hreported failing content).failed rfl hfails id
  obtain rfl : failure = .request (.unknownDomain "mortgage") := (Except.error.inj hrun).symm
  refine ⟨hplain, hshown, hmisnames, hstatus _ _ _ (htask _ hplain hshown).1, hstderr, ?_, hread⟩
  rw [hstdout]
  simp

end Verdict.Command
