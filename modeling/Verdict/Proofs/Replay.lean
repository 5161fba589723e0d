import Verdict.Proofs.Replacement

/-!
# Replaying a report

A report names the domain, the facts and the mode of its request. Decided again from these, the
request is that of the same record without the signs of zeros: judged alike, and with the same
proof program, in which a zero never has a sign. So only what shows the facts themselves can
change, and a second replay changes nothing.
-/

namespace Verdict

/-! ## The proof program of a record without signs on zeros -/

theorem SExpr.real_plain (d : Decimal) : SExpr.real d.plain = SExpr.real d := by
  have hsign : (d.plain.negative && d.plain.coefficient != 0) =
      (d.negative && d.coefficient != 0) := by
    by_cases hzero : d.coefficient = 0 <;> simp [Decimal.plain, Decimal.ofParts, hzero]
  rw [real, hsign]
  rfl

theorem Value.literal?_plain (sort : FactSort) (v : Value) :
    v.plain.literal? sort = v.literal? sort := by
  cases v with
  | decimal d => rw [plain, literal?, literal?, SExpr.real_plain]
  | _ => rfl

theorem Value.kind_plain (v : Value) : v.plain.kind = v.kind := by
  cases v <;> rfl

namespace FactRecord

theorem binding_plain (r : FactRecord) (d : Declaration) :
    d.binding r.plain.known = d.binding r.known := by
  rw [Declaration.binding, Declaration.binding, get?_known_plain]
  cases r.known.get? d.fact with
  | none => rfl
  | some v =>
    simp only [Option.map_some, Value.literal?_plain, Value.kind_plain]

theorem program_plain (r : FactRecord) : r.plain.program = r.program := by
  have hbinding : Declaration.binding r.plain.known = Declaration.binding r.known :=
    funext r.binding_plain
  have hknown : r.plain.known.isKnown = r.known.isKnown := funext r.same_plain.known.isKnown
  simp only [program, domain_plain, Policy.program, hbinding, Policy.knownBindings, hknown]

/-! ## Facts with signs on zeros -/

/-- The text of a zero shows its sign. -/
theorem text_plain_ne {d : Decimal} (h : d.isNegativeZero = true) : d.plain.text ≠ d.text := by
  rw [Decimal.isNegativeZero, Bool.and_eq_true, beq_iff_eq] at h
  intro htext
  have hchars : d.plain.chars = d.chars := String.ofList_injective htext
  have hsign : '-' ∈ d.plain.chars := by
    rw [hchars, Decimal.chars, if_pos h.1]
    exact List.mem_cons_self
  have hplain : d.plain.negative = false := by simp [Decimal.plain, Decimal.ofParts, h.2]
  rw [Decimal.chars, hplain, if_neg Bool.false_ne_true] at hsign
  rcases Decimal.isDigit_of_mem_unsignedText hsign with hdigit | hpoint
  · exact absurd hdigit (by decide)
  · exact absurd hpoint (by decide)

/-- A flat object shows whether some zero has a sign. -/
theorem hasNegativeZero_of_toJson_plain {r : FactRecord} (h : r.plain.toJson = r.toJson) :
    r.hasNegativeZero = false := by
  have hmembers : r.plain.members = r.members := Json.object.inj h
  rw [hasNegativeZero, List.any_eq_false]
  rintro ⟨name, value⟩ hfield hzero
  have hlookup : r.fields.lookup name = some value := Keyed.lookup_of_mem r.nodup_fields hfield
  have hstated : stated (value.map Value.plain) = stated value := by
    have h : r.plain.members.lookup name = r.members.lookup name := by rw [hmembers]
    rw [lookup_members, lookup_members, fields_plain, Keyed.lookup_map_snd, hlookup] at h
    exact Option.some.inj h
  cases value with
  | none => cases hzero
  | some v =>
    cases v with
    | decimal d => exact text_plain_ne hzero (Json.string.inj hstated)
    | bool _ | int _ | date _ => cases hzero

/-! ## Deciding again -/

/-- Without signs on zeros a record is decided in the same way; only what shows the facts may
change. -/
theorem decide_plain {r : FactRecord} {mode : Mode} {report : Report}
    (h : r.decide mode = .ok report) :
    ∃ replay, r.plain.decide mode = .ok replay ∧ report.facts = r.toJson ∧
      replay.facts = r.plain.toJson ∧
      replay = { report with
        model := replay.model
        explanation := replay.explanation
        facts := replay.facts } := by
  obtain ⟨program, hprogram⟩ := r.exists_program
  have hprogram' : r.plain.program = .ok program := r.program_plain.trans hprogram
  rw [decide, hprogram] at h
  cases h
  rw [decide, hprogram', judge_plain, domain_plain]
  exact ⟨_, rfl, rfl, rfl, rfl⟩

/-- The record on which a request is decided. -/
def DecidedOn (r : FactRecord) (domain : String) (request : Json) : Prop :=
  ∃ d, Domain.ofName? domain = some d ∧ assemble d request = .ok r

theorem DecidedOn.reassembled {r : FactRecord} {domain : String} {request : Json}
    (h : r.DecidedOn domain request) : r.reassembled = r.plain := by
  obtain ⟨d, -, hr⟩ := h
  exact (reassembled_of_assemble hr).2

/-- A request is decided on one record at most. -/
theorem DecidedOn.unique {r r' : FactRecord} {domain : String} {request : Json}
    (h : r.DecidedOn domain request) (h' : r'.DecidedOn domain request) : r = r' := by
  obtain ⟨d, hd, hr⟩ := h
  obtain ⟨d', hd', hr'⟩ := h'
  obtain rfl : d = d' := Option.some.inj (hd.symm.trans hd')
  exact Except.ok.inj (hr.symm.trans hr')

theorem DecidedOn.decideRequest_eq {r : FactRecord} {domain : String} {request : Json}
    (h : r.DecidedOn domain request) (mode : Mode) :
    decideRequest domain request mode = r.decide mode := by
  obtain ⟨d, hd, hr⟩ := h
  simp only [decideRequest, hd, hr]
  rfl

theorem assemble_toJson {r : FactRecord} (h : r.reassembled = r.plain) :
    assemble r.domain r.toJson = .ok r.plain := by
  rw [← h]
  exact r.assemble_flat r.lookup_members

/-- A report asks for the record without signs on zeros, in the same mode. -/
theorem decideRequest_report {r : FactRecord} {mode : Mode} {report : Report}
    (hcounted : r.reassembled = r.plain) (h : r.decide mode = .ok report) :
    decideRequest report.domain report.facts report.mode = r.plain.decide mode := by
  obtain ⟨program, hprogram⟩ := r.exists_program
  rw [decide, hprogram] at h
  cases h
  have hdecided : r.plain.DecidedOn r.domain.name r.toJson :=
    ⟨r.domain, r.domain.ofName?_name, assemble_toJson hcounted⟩
  exact hdecided.decideRequest_eq mode

theorem reassembled_plain {r : FactRecord} (h : r.reassembled = r.plain) :
    r.plain.reassembled = r.plain.plain := by
  cases r with
  | authorization f => rfl
  | dispute f => exact h
  | creditLineIncrease f => rfl

end FactRecord

/-- A report is one on a record, or it says that the domain is not known. -/
theorem decideRequest_cases {domain : String} {request : Json} {mode : Mode} {report : Report}
    (h : decideRequest domain request mode = .ok report) :
    (Domain.ofName? domain = none ∧ report = .unknownDomain domain mode) ∨
      ∃ r : FactRecord, r.DecidedOn domain request ∧ r.decide mode = .ok report := by
  cases hdomain : Domain.ofName? domain with
  | none =>
    rw [decideRequest, hdomain] at h
    cases h
    exact Or.inl ⟨rfl, rfl⟩
  | some d =>
    rw [decideRequest, hdomain] at h
    obtain ⟨r, hr, hdecide⟩ := exists_of_bind_eq_ok h
    exact Or.inr ⟨r, ⟨d, hdomain, hr⟩, hdecide⟩

theorem unknownDomain_replay {domain : String} {mode : Mode}
    (h : Domain.ofName? domain = none) :
    decideRequest (Report.unknownDomain domain mode).domain
      (Report.unknownDomain domain mode).facts (Report.unknownDomain domain mode).mode =
        .ok (.unknownDomain domain mode) := by
  have hname : Domain.ofName? (Report.unknownDomain domain mode).domain = none := h
  rw [decideRequest, hname]
  rfl

open FactRecord in
/-- A report can be replayed from its own contents. Its record is assembled again from the flat
object, but for the signs of zeros. Only if there are none the replay is the report itself;
otherwise it differs at most in what shows the facts. A second replay changes nothing. -/
theorem reports_replay (domain : String) (request : Json) (mode : Mode) :
    (∀ r : FactRecord, r.DecidedOn domain request →
        assemble r.domain r.toJson = .ok r.plain ∧ (r.plain = r ↔ r.hasNegativeZero = false)) ∧
      ∀ report, decideRequest domain request mode = .ok report →
        ∃ replay, decideRequest report.domain report.facts report.mode = .ok replay ∧
          replay = { report with
            model := replay.model
            explanation := replay.explanation
            facts := replay.facts } ∧
          (replay = report ↔
            ∀ r : FactRecord, r.DecidedOn domain request → r.hasNegativeZero = false) ∧
          decideRequest replay.domain replay.facts replay.mode = .ok replay := by
  constructor
  · intro r hr
    exact ⟨assemble_toJson hr.reassembled, r.plain_eq_self_iff⟩
  · intro report h
    rcases decideRequest_cases h with ⟨hdomain, rfl⟩ | ⟨r, hr, hdecide⟩
    · refine ⟨_, unknownDomain_replay hdomain, rfl, ?_, unknownDomain_replay hdomain⟩
      refine iff_of_true rfl ?_
      rintro r ⟨d, hd, -⟩
      rw [hdomain] at hd
      cases hd
    · obtain ⟨replay, hreplay, hfacts, hfacts', hsame⟩ := decide_plain hdecide
      refine ⟨replay, ?_, hsame, ?_, ?_⟩
      · rw [decideRequest_report hr.reassembled hdecide, hreplay]
      · constructor
        · intro heq r' hr'
          rw [← hr.unique hr']
          apply hasNegativeZero_of_toJson_plain
          rw [← hfacts, ← hfacts', heq]
        · intro hzero
          rw [r.plain_eq_self_iff.mpr (hzero r hr), hdecide] at hreplay
          exact (Except.ok.inj hreplay).symm
      -- The replay is a report as well, on the record without signs on zeros.
      · rw [decideRequest_report (reassembled_plain hr.reassembled) hreplay, plain_plain, hreplay]

/-- The day count that the dates do not give is kept by the report on the dispute. -/
theorem reports_replay_miscountedDispute :
    miscountedDispute.DecidedOn " Dispute" miscountedRequest ∧
      FactRecord.assemble .dispute miscountedDispute.toJson = .ok miscountedDispute.plain ∧
      ∃ report, decideRequest " Dispute" miscountedRequest .soft = .ok report ∧
        decideRequest report.domain report.facts report.mode = .ok report := by
  obtain ⟨report, hdecide, -⟩ := miscountedDispute.exists_decide .soft
  have hdecided : miscountedDispute.DecidedOn " Dispute" miscountedRequest :=
    ⟨.dispute, by decide +kernel, assemble_miscountedRequest⟩
  have hreport : decideRequest " Dispute" miscountedRequest .soft = .ok report :=
    (hdecided.decideRequest_eq .soft).trans hdecide
  obtain ⟨hassembled, hreplayed⟩ := reports_replay " Dispute" miscountedRequest .soft
  obtain ⟨replay, hreplay, -, hsame, -⟩ := hreplayed report hreport
  have hself : replay = report := by
    refine hsame.mpr fun r hr => ?_
    rw [hr.unique hdecided]
    rfl
  rw [hself] at hreplay
  exact ⟨hdecided, (hassembled _ hdecided).1, report, hreport, hreplay⟩

/-- A zero with a sign is written with the sign into the facts of the report, but read without. -/
theorem signedZero_not_replayed :
    ∃ report replay, decideRequest "authorization" signedZeroRequest .hard = .ok report ∧
      decideRequest report.domain report.facts report.mode = .ok replay ∧
      replay.facts ≠ report.facts := by
  obtain ⟨report, hdecide, -⟩ := signedZeroPayment.exists_decide .hard
  have hdecided : signedZeroPayment.DecidedOn "authorization" signedZeroRequest :=
    ⟨.authorization, Domain.ofName?_name .authorization, rfl⟩
  have hreport : decideRequest "authorization" signedZeroRequest .hard = .ok report :=
    (hdecided.decideRequest_eq .hard).trans hdecide
  obtain ⟨replay, hreplay, hfacts, hfacts', -⟩ := FactRecord.decide_plain hdecide
  refine ⟨report, replay, hreport, ?_, ?_⟩
  · rw [FactRecord.decideRequest_report rfl hdecide, hreplay]
  · intro heq
    rw [hfacts, hfacts'] at heq
    have hzero := FactRecord.hasNegativeZero_of_toJson_plain heq
    revert hzero
    decide

end Verdict
