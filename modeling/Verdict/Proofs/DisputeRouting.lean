import Verdict.Proofs.Calendar
import Verdict.Proofs.Judging
import Verdict.Proofs.Replay
import Verdict.Proofs.UnreadMembers

/-!
# Routing of a dispute

A dispute is routed by two things that its request says: whether the charge is a duplicate, and how
many days went by before the claim. The days may be stated; otherwise they are counted in the
calendar from one date to the other, and without both dates they are unknown. A claim within the
window, or one whose days are unknown, is taken up if the charge is a duplicate.
-/

namespace Verdict

/-! ## What a request gives -/

namespace Json

/-- The value of the first of the names that has one. Null is no value. -/
def given? (request : Json) (names : List String) : Option Json :=
  names.findSome? fun name => request.nonNull? [name]

/-- Under the names the request gives nothing, or what is read from the value that counts. -/
inductive Gives {α : Type} (request : Json) (names : List String) (read? : Json → Option α) :
    Option α → Prop where
  | nothing (h : request.given? names = none) : Gives request names read? none
  | value {v : Json} {a : α} (h : request.given? names = some v) (hread : read? v = some a) :
    Gives request names read? (some a)

variable {α : Type} {request : Json} {names : List String} {read? : Json → Option α}

theorem Gives.unique {a a' : Option α} (h : request.Gives names read? a)
    (h' : request.Gives names read? a') : a = a' := by
  cases h with
  | nothing h =>
    cases h' with
    | nothing _ => rfl
    | value h' _ => cases h.symm.trans h'
  | value h hread =>
    cases h' with
    | nothing h' => cases h.symm.trans h'
    | value h' hread' =>
      obtain rfl := Option.some.inj (h.symm.trans h')
      exact hread.symm.trans hread'

end Json

namespace Field

variable {field : Field} {names : List String}

/-- A field that is stated under names of the request itself is the first value among them. -/
theorem find?_of_names (h : field.spellings = names.map fun name => ⟨[name], false⟩)
    (request : Json) : field.find? request = (request.given? names).map fun v => (v, false) := by
  have hdeeper : ∀ name, goesDeeper field.spellings [name] = false := by
    intro name
    simp [goesDeeper, h]
  have hstated : ∀ name, stated? field.spellings request ⟨[name], false⟩ =
      (request.nonNull? [name]).map fun v => (v, false) := by
    intro name
    rw [stated?, Json.nonNull?, hdeeper]
    cases request.at? [name] with
    | none => rfl
    | some v => cases hnull : v.isNull <;> simp [hnull, Option.filter_some]
  have hcompose : stated? field.spellings request ∘ (fun name => ⟨[name], false⟩) =
      Option.map (fun v => (v, false)) ∘ fun name => request.nonNull? [name] := funext hstated
  rw [find?, Json.given?, List.map_findSome?, ← hcompose, h, List.findSome?_map]

theorem gives_of_read {α : Type} {kind : Value.Kind} {ofJson? : Json → Bool → Option α}
    {read? : Json → Option α} (hread? : ∀ v, ofJson? v false = read? v)
    (hnames : field.spellings = names.map fun name => ⟨[name], false⟩) {request : Json}
    {a : Option α} (h : field.read kind ofJson? request = .ok a) :
    request.Gives names read? a := by
  rw [read, find?_of_names hnames] at h
  cases hgiven : request.given? names with
  | none =>
    rw [hgiven] at h
    cases h
    exact .nothing hgiven
  | some v =>
    simp only [hgiven, Option.map_some, hread?] at h
    cases hread : read? v with
    | none =>
      rw [hread] at h
      cases h
    | some b =>
      rw [hread] at h
      cases h
      exact .value hgiven hread

end Field

/-! ## What a dispute is read from -/

/-- The names under which the date of the transaction is stated. -/
def transactionDateNames : List String :=
  ["transaction_date", "txn_date"]

/-- The names under which the count of days is stated. -/
def dayCountNames : List String :=
  ["days_since_transaction", "days_since_txn"]

/-- The days from the transaction to the claim, if they are known. -/
inductive EffectiveDays (request : Json) : Option ℤ → Prop where
  | stated {n : Int64} (h : request.Gives dayCountNames int64OfJson? (some n)) :
    EffectiveDays request (some n.toInt)
  | counted {start finish : Date} {days : ℤ}
    (hcount : request.Gives dayCountNames int64OfJson? none)
    (hstart : request.Gives transactionDateNames Date.ofJson? (some start))
    (hfinish : request.Gives ["claim_date"] Date.ofJson? (some finish))
    (h : start.Elapsed finish days) : EffectiveDays request (some days)
  | unknown (hcount : request.Gives dayCountNames int64OfJson? none)
    (h : request.Gives transactionDateNames Date.ofJson? none ∨
      request.Gives ["claim_date"] Date.ofJson? none) : EffectiveDays request none

namespace DisputeFacts

/-- The facts of a dispute are what the request gives. -/
structure ReadFrom (request : Json) (f : DisputeFacts) : Prop where
  duplicateCharge : request.Gives ["duplicate_charge"] boolOfJson? f.duplicateCharge
  transactionDate : request.Gives transactionDateNames Date.ofJson? f.transactionDate
  claimDate : request.Gives ["claim_date"] Date.ofJson? f.claimDate
  daysSinceTransaction : ∃ stated, request.Gives dayCountNames int64OfJson? stated ∧
    f.daysSinceTransaction = stated.or (daysBetween? f.transactionDate f.claimDate)

variable {request : Json} {f : DisputeFacts}

theorem readFrom_of_assemble (h : assemble request = .ok f) : f.ReadFrom request := by
  rw [assemble] at h
  obtain ⟨duplicate, hduplicate, h⟩ := exists_of_bind_eq_ok h
  obtain ⟨start, hstart, h⟩ := exists_of_bind_eq_ok h
  obtain ⟨finish, hfinish, h⟩ := exists_of_bind_eq_ok h
  obtain ⟨stated, hstated, h⟩ := exists_of_bind_eq_ok h
  cases h
  have hbool (v : Json) : (boolOfJson? v).map (· != false) = boolOfJson? v := by
    simp
  exact
    { duplicateCharge := Field.gives_of_read hbool rfl hduplicate
      transactionDate := Field.gives_of_read (fun _ => rfl) rfl hstart
      claimDate := Field.gives_of_read (fun _ => rfl) rfl hfinish
      daysSinceTransaction := ⟨stated, Field.gives_of_read (fun _ => rfl) rfl hstated, rfl⟩ }

theorem ReadFrom.duplicateCharge_iff (h : f.ReadFrom request) :
    f.duplicateCharge = some true ↔ request.given? ["duplicate_charge"] = some (.bool true) := by
  have hgives := h.duplicateCharge
  generalize f.duplicateCharge = charge at hgives
  cases hgives with
  | nothing hgiven => simp [hgiven]
  | @value v b hgiven hread =>
    cases v with
    | bool b' =>
      cases hread
      simp [hgiven]
    | _ => cases hread

/-- The day count of the facts is the effective one. -/
theorem ReadFrom.effectiveDays (h : f.ReadFrom request) :
    EffectiveDays request (f.daysSinceTransaction.map Int64.toInt) := by
  obtain ⟨stated, hstated, hdays⟩ := h.daysSinceTransaction
  have hstart := h.transactionDate
  have hfinish := h.claimDate
  rw [hdays]
  cases stated with
  | some n => exact .stated hstated
  | none =>
    rw [Option.none_or, toInt_daysBetween?]
    generalize f.transactionDate = start at hstart
    generalize f.claimDate = finish at hfinish
    cases start with
    | none => exact .unknown hstated (.inl hstart)
    | some s =>
      cases finish with
      | none => exact .unknown hstated (.inr hfinish)
      | some t => exact .counted hstated hstart hfinish (Date.elapsed_iff.mpr rfl)

theorem ReadFrom.eq_of_effectiveDays (h : f.ReadFrom request) {days : Option ℤ}
    (hdays : EffectiveDays request days) : days = f.daysSinceTransaction.map Int64.toInt := by
  obtain ⟨stated, hstated, hcount⟩ := h.daysSinceTransaction
  rw [hcount]
  cases hdays with
  | stated hn =>
    rw [hstated.unique hn]
    rfl
  | counted hnone hstart hfinish helapsed =>
    rw [hstated.unique hnone, Option.none_or, toInt_daysBetween?, h.transactionDate.unique hstart,
      h.claimDate.unique hfinish, Date.elapsed_iff.mp helapsed]
    rfl
  | unknown hnone hdates =>
    rw [hstated.unique hnone, Option.none_or, toInt_daysBetween?]
    rcases hdates with hstart | hfinish
    · rw [h.transactionDate.unique hstart]
      rfl
    · rw [h.claimDate.unique hfinish]
      cases f.transactionDate <;> rfl

end DisputeFacts

/-! ## The window and the decision -/

namespace FactRecord

variable {f : DisputeFacts} {mode : Mode}

/-- The only invariant of a dispute holds if the days are unknown or within the window. -/
theorem isSatisfied_dispute_iff :
    Policy.dispute.isSatisfied (dispute f).known = true ↔
      ∀ n ∈ f.daysSinceTransaction.map Int64.toInt, n ≤ 120 := by
  have hdays : (dispute f).known.get? "days_since_transaction" =
      f.daysSinceTransaction.map .int := get?_known_of_lookup rfl
  have hwindow : Policy.refundWindowDays.toInt = 120 := by decide
  simp only [Policy.isSatisfied, Policy.dispute, List.all_cons, List.all_nil, Bool.and_true,
    Predicate.holds_known_implies_iff]
  cases hcount : f.daysSinceTransaction with
  | none => simp [FactSet.isKnown, hdays, hcount]
  | some n =>
    simp [FactSet.isKnown, Predicate.holds_compare_iff, Term.eval, Reading.ofFact_eq_ok, hdays,
      hcount, Value.compare_int, Comparison.relates, hwindow]

theorem judge_dispute_eq :
    ((dispute f).judge mode).1.decision =
      if f.duplicateCharge = some true ∧ ∀ n ∈ f.daysSinceTransaction.map Int64.toInt, n ≤ 120 then
        .reasonCode4834
      else .requestMoreDocs := by
  by_cases hwindow : ∀ n ∈ f.daysSinceTransaction.map Int64.toInt, n ≤ 120
  · have hcharge : (dispute f).known.get? "duplicate_charge" = some (.bool true) ↔
        f.duplicateCharge = some true := by
      rw [get?_known_of_lookup rfl]
      cases f.duplicateCharge <;> simp
    rw [judge_dispute_decision (isSatisfied_dispute_iff.mpr hwindow)]
    simp only [hcharge, and_iff_left hwindow]
  · have hrejected : ¬Policy.dispute.isSatisfied (dispute f).known = true :=
      mt isSatisfied_dispute_iff.mp hwindow
    rw [judge_dispute, Policy.verify_decision, if_neg hrejected, if_neg fun h => hwindow h.2]
    rfl

theorem judge_dispute_satisfiable :
    ((dispute f).judge mode).1.satisfiable = true ↔
      ∀ n ∈ f.daysSinceTransaction.map Int64.toInt, n ≤ 120 := by
  rw [judge_dispute, Policy.verify_satisfiable, isSatisfied_dispute_iff]

theorem exists_of_assemble_dispute {request : Json} {r : FactRecord}
    (h : assemble .dispute request = .ok r) : ∃ f, r = dispute f ∧ f.ReadFrom request := by
  rw [assemble] at h
  split at h
  · obtain ⟨f, hf, hr⟩ := exists_of_bind_eq_ok h
    exact ⟨f, (Except.ok.inj hr).symm, DisputeFacts.readFrom_of_assemble hf⟩
  · cases h

end FactRecord

/-- Every request that gives the facts of a dispute is decided, in both modes. Its effective days
are the count that it states, or else those of the calendar between its two dates, or else unknown.
The reason code is the decision exactly if the charge is a duplicate and the days are unknown or at
most 120; otherwise documents are asked for. Where the days follow from the dates, the request is
unsatisfiable exactly if the claim is later than 120 days after the transaction. -/
theorem dispute_routed {name : String} {request : Json} {r : FactRecord} (mode : Mode)
    (hname : Domain.ofName? name = some .dispute)
    (hassembled : FactRecord.assemble .dispute request = .ok r) :
    ∃ report, decideRequest name request mode = .ok report ∧
      (∃! days, EffectiveDays request days) ∧
      (∀ days, EffectiveDays request days →
        (report.decision = .reasonCode4834 ↔
          request.given? ["duplicate_charge"] = some (.bool true) ∧ ∀ n ∈ days, n ≤ 120)) ∧
      (report.decision ≠ .reasonCode4834 → report.decision = .requestMoreDocs) ∧
      ∀ start finish : Date, request.Gives dayCountNames int64OfJson? none →
        request.Gives transactionDateNames Date.ofJson? (some start) →
        request.Gives ["claim_date"] Date.ofJson? (some finish) →
        (report.satisfiable = false ↔
          ∃ limit, Date.DaysAfter 120 start limit ∧ limit.order finish = .lt) := by
  obtain ⟨f, rfl, hf⟩ := FactRecord.exists_of_assemble_dispute hassembled
  obtain ⟨report, hreport, hdecision⟩ := (FactRecord.dispute f).exists_decide mode
  have hsatisfiable := FactRecord.satisfiable_of_decide hreport
  have hdecided : decideRequest name request mode = .ok report :=
    (FactRecord.DecidedOn.decideRequest_eq ⟨_, hname, hassembled⟩ mode).trans hreport
  rw [FactRecord.judge_dispute_eq] at hdecision
  refine ⟨report, hdecided, ⟨_, hf.effectiveDays, fun _ => hf.eq_of_effectiveDays⟩,
    fun days hdays => ?_, fun hne => ?_, fun start finish hcount hstart hfinish => ?_⟩
  · rw [hf.eq_of_effectiveDays hdays, hdecision, ← hf.duplicateCharge_iff]
    split
    · exact iff_of_true rfl ‹_›
    · exact iff_of_false nofun ‹_›
  · rw [hdecision] at hne ⊢
    exact if_neg fun h => hne (if_pos h)
  · have hdays := EffectiveDays.counted hcount hstart hfinish (Date.elapsed_iff.mpr rfl)
    rw [hsatisfiable, ← Bool.not_eq_true, FactRecord.judge_dispute_satisfiable,
      ← hf.eq_of_effectiveDays hdays, Date.exists_daysAfter_lt_iff]
    simp only [Option.mem_some_iff, forall_eq', not_le, Nat.cast_ofNat]

/-- A dispute of a duplicate charge from November 2023. Null stands under the names that count
first. -/
def novemberDispute (claimDate : String) : Json :=
  .ofMembers [("duplicate_charge", .bool true), ("transaction_date", .null),
    ("txn_date", .string "2023-11-01"), ("claim_date", .string claimDate),
    ("days_since_transaction", .null)]

/-- The window ends with the leap day. -/
theorem dispute_routed_november :
    Domain.ofName? " Dispute" = some .dispute ∧
      (∃ r, FactRecord.assemble .dispute (novemberDispute "2024-02-29") = .ok r) ∧
      (∃ r, FactRecord.assemble .dispute (novemberDispute "2024-03-01") = .ok r) ∧
      (∃ report, decideRequest " Dispute" (novemberDispute "2024-02-29") .soft = .ok report ∧
        report.decision = .reasonCode4834) ∧
      ∃ report, decideRequest " Dispute" (novemberDispute "2024-03-01") .soft = .ok report ∧
        report.satisfiable = false := by
  have hname : Domain.ofName? " Dispute" = some .dispute := by decide +kernel
  have hintime : FactRecord.assemble .dispute (novemberDispute "2024-02-29") = .ok
      (.dispute ⟨some true, Date.of? 2023 11 1, Date.of? 2024 2 29, some 120⟩) := rfl
  have hlate : FactRecord.assemble .dispute (novemberDispute "2024-03-01") = .ok
      (.dispute ⟨some true, Date.of? 2023 11 1, Date.of? 2024 3 1, some 121⟩) := rfl
  have hstart : Date.ofJson? (.string "2023-11-01") =
      some ⟨2023, 11, 1, by decide, by decide, by decide, by decide⟩ := rfl
  have hleapDay : Date.ofJson? (.string "2024-02-29") =
      some ⟨2024, 2, 29, by decide, by decide, by decide, by decide⟩ := rfl
  have hnextDay : Date.ofJson? (.string "2024-03-01") =
      some ⟨2024, 3, 1, by decide, by decide, by decide, by decide⟩ := rfl
  refine ⟨hname, ⟨_, hintime⟩, ⟨_, hlate⟩, ?_, ?_⟩
  · have hdays : EffectiveDays (novemberDispute "2024-02-29") (some 120) :=
      .counted (.nothing rfl) (.value rfl hstart) (.value rfl hleapDay)
        (Date.elapsed_iff.mpr (by decide))
    obtain ⟨report, hreport, -, hdecision, -⟩ := dispute_routed .soft hname hintime
    exact ⟨report, hreport, (hdecision _ hdays).mpr ⟨rfl, by simp⟩⟩
  · obtain ⟨report, hreport, -, -, -, hsatisfiable⟩ := dispute_routed .soft hname hlate
    refine ⟨report, hreport, (hsatisfiable _ _ (.nothing rfl) (.value rfl hstart)
      (.value rfl hnextDay)).mpr ?_⟩
    exact Date.exists_daysAfter_lt_iff.mpr (by decide)

end Verdict
