import Verdict.Proofs.RecordProgram
import Verdict.Proofs.SignOfZero

/-!
# Replacing a fact by its own value

The record is assembled again from its flat object. This gives the same record, but for the sign
of a zero, which no text keeps, and for the day count of a dispute: a date that is replaced takes
the count away, even if the date is the same as before. The count is then the one that the dates
give, and there is none if a date is not known.
-/

namespace Verdict

/-- The decimal zero with a sign. -/
def Value.isNegativeZero : Value → Bool
  | decimal d => d.isNegativeZero
  | _ => false

/-- The facts with the day count that the two dates give. -/
def DisputeFacts.recounted (f : DisputeFacts) : DisputeFacts :=
  { f with daysSinceTransaction := daysBetween? f.transactionDate f.claimDate }

/-- A count that is not known does not follow from the dates either. -/
theorem DisputeFacts.counted_counted (f : DisputeFacts) : f.counted.counted = f.counted := by
  obtain ⟨duplicate, start, finish, days⟩ := f
  cases days <;> simp [counted]

theorem DisputeFacts.counted_of_assemble {request : Json} {f : DisputeFacts}
    (h : assemble request = .ok f) : f.counted = f := by
  rw [assemble_eq] at h
  cases hread : read request with
  | error e => simp [hread] at h
  | ok g =>
    rw [hread, Except.map_ok, Except.ok.injEq] at h
    rw [← h, counted_counted]

/-- Taking the count away from a flat object leaves that of the dispute without the count. -/
theorem DisputeFacts.flatMembers_uncounted {f : DisputeFacts} {members : List (String × Json)}
    (h : FlatMembers f.fields members) :
    FlatMembers { f with daysSinceTransaction := none }.fields
      (Keyed.insert "days_since_transaction" .null members) := by
  intro key
  rw [Keyed.lookup_insert, h]
  by_cases hdays : key = "days_since_transaction"
  · rw [if_pos hdays, hdays]
    rfl
  · simp only [fields, Keyed.lookup_cons_eq, if_neg hdays]

namespace FactRecord

/-- Some fact is a zero with a sign. -/
def hasNegativeZero (r : FactRecord) : Bool :=
  r.fields.any fun field => field.2.any Value.isNegativeZero

/-- The record with the day count that its dates give, if the fact is a date of a dispute. -/
def recounted (r : FactRecord) (field : String) : FactRecord :=
  match r with
  | dispute f =>
    if field = "transaction_date" ∨ field = "claim_date" then dispute f.recounted else dispute f
  | r => r

/-- The fact is a date of a dispute with a day count that is not the one that its dates give. -/
def recounts (r : FactRecord) (field : String) : Bool :=
  match r with
  | dispute f =>
    (field = "transaction_date" || field = "claim_date") &&
      f.daysSinceTransaction != daysBetween? f.transactionDate f.claimDate
  | _ => false

theorem plain_eq_self_iff (r : FactRecord) : r.plain = r ↔ r.hasNegativeZero = false := by
  have hdecimal : ∀ value : Option Decimal,
      (value.map Value.decimal).any Value.isNegativeZero = false ↔
        value.map Decimal.plain = value := by
    intro value
    cases value <;> simp [Decimal.plain_eq_self_iff, Value.isNegativeZero]
  have hother : ∀ {α : Type} (value : Option α) (encode : α → Value),
      (∀ a, (encode a).isNegativeZero = false) →
        (value.map encode).any Value.isNegativeZero = false := by
    intro α value encode h
    cases value <;> simp [h]
  cases r with
  | authorization f =>
    obtain ⟨amount, balance, limit, risk, code, channel, velocity⟩ := f
    simp only [plain, AuthorizationFacts.plain, hasNegativeZero, fields, AuthorizationFacts.fields,
      List.any_cons, List.any_nil, Bool.or_eq_false_iff, hdecimal, authorization.injEq,
      AuthorizationFacts.mk.injEq, hother code .int fun _ => rfl, hother channel .bool fun _ => rfl,
      hother velocity .int fun _ => rfl, and_true]
  | dispute f =>
    obtain ⟨duplicate, start, finish, days⟩ := f
    simp only [plain, hasNegativeZero, fields, DisputeFacts.fields, List.any_cons, List.any_nil,
      Bool.or_eq_false_iff, hother duplicate .bool fun _ => rfl, hother start .date fun _ => rfl,
      hother finish .date fun _ => rfl, hother days .int fun _ => rfl, and_true]
  | creditLineIncrease f =>
    obtain ⟨requested, limit, income, tenure, delinquent⟩ := f
    simp only [plain, CreditLineFacts.plain, hasNegativeZero, fields, CreditLineFacts.fields,
      List.any_cons, List.any_nil, Bool.or_eq_false_iff, hdecimal, creditLineIncrease.injEq,
      CreditLineFacts.mk.injEq, hother tenure .int fun _ => rfl,
      hother delinquent .bool fun _ => rfl, and_true]

theorem recounted_eq_self_iff (r : FactRecord) (field : String) :
    r.recounted field = r ↔ r.recounts field = false := by
  cases r with
  | authorization f => exact iff_of_true rfl rfl
  | creditLineIncrease f => exact iff_of_true rfl rfl
  | dispute f =>
    obtain ⟨duplicate, start, finish, days⟩ := f
    by_cases hdate : field = "transaction_date" ∨ field = "claim_date"
    · have hrecounts : recounts (.dispute ⟨duplicate, start, finish, days⟩) field =
          (days != daysBetween? start finish) := by
        simp [recounts, hdate]
      rw [recounted, if_pos hdate, hrecounts, bne_eq_false_iff_eq]
      simp only [DisputeFacts.recounted, dispute.injEq, DisputeFacts.mk.injEq, true_and]
      exact eq_comm
    · have hrecounts : recounts (.dispute ⟨duplicate, start, finish, days⟩) field = false := by
        simp [recounts, hdate]
      rw [recounted, if_neg hdate]
      exact iff_of_true rfl hrecounts

/-- A count of days gives no zero a sign. -/
theorem plain_recounted {r : FactRecord} (h : r.hasNegativeZero = false) (field : String) :
    (r.recounted field).plain = r.recounted field := by
  cases r with
  | authorization f => exact (plain_eq_self_iff _).mpr h
  | creditLineIncrease f => exact (plain_eq_self_iff _).mpr h
  | dispute f =>
    rw [recounted]
    split <;> rfl

theorem at?_toJson (r : FactRecord) (field : String) :
    r.toJson.at? [field] = r.members.lookup field := by
  rw [toJson, Json.at?]
  cases r.members.lookup field <;> rfl

theorem exists_lookup_members {r : FactRecord} {field : String}
    (h : r.domain.policy.declares field = true) :
    ∃ value, r.members.lookup field = some value := by
  rw [declares_iff, List.mem_map] at h
  obtain ⟨entry, hentry, rfl⟩ := h
  have hsome : (r.fields.lookup entry.1).isSome := by
    rw [List.lookup_isSome_iff]
    exact ⟨entry, hentry, beq_self_eq_true _⟩
  obtain ⟨value, hvalue⟩ := Option.isSome_iff_exists.mp hsome
  exact ⟨stated value, by rw [lookup_members, hvalue, Option.map_some]⟩

theorem flatMembers_insert_own {r : FactRecord} {field : String} {value : Json}
    (h : r.members.lookup field = some value) :
    FlatMembers r.fields (Keyed.insert field value r.members) := by
  intro key
  rw [Keyed.lookup_insert, ← lookup_members]
  split
  · rename_i hkey
    rw [hkey, h]
  · rfl

theorem domain_eq_dispute {domain : Domain} {field : String}
    (hdate : field = "transaction_date" ∨ field = "claim_date")
    (h : domain.policy.declares field = true) : domain = .dispute := by
  rcases hdate with rfl | rfl <;> cases domain <;> first | rfl | exact absurd h (by decide)

/-- A record is assembled again without the signs of zeros, and the count of days is derived again
if a date was replaced. -/
theorem withFact_own {r : FactRecord} {field : String} {value : Json}
    (hcounted : r.reassembled = r.plain) (hdeclared : r.domain.policy.declares field = true)
    (hvalue : r.members.lookup field = some value) :
    r.withFact field value = .ok (r.recounted field).plain := by
  have hflat : FlatMembers r.fields (Keyed.insert field value r.members) :=
    flatMembers_insert_own hvalue
  rw [withFact, if_pos hdeclared, replaced]
  by_cases hdate : field = "transaction_date" ∨ field = "claim_date"
  · rw [if_pos hdate]
    cases r with
    | authorization f => cases domain_eq_dispute hdate hdeclared
    | creditLineIncrease f => cases domain_eq_dispute hdate hdeclared
    | dispute f =>
      have hassemble := assemble_flat (dispute { f with daysSinceTransaction := none })
        (DisputeFacts.flatMembers_uncounted hflat)
      simp only [recounted, if_pos hdate]
      exact hassemble
  · rw [if_neg hdate, r.assemble_flat hflat, hcounted]
    cases r with
    | authorization f => rfl
    | creditLineIncrease f => rfl
    | dispute f =>
      rw [recounted, if_neg hdate]

/-- An assembled record is of the domain and has the day count that its dates give, if it has no
other one. -/
theorem reassembled_of_assemble {domain : Domain} {request : Json} {r : FactRecord}
    (h : assemble domain request = .ok r) : r.domain = domain ∧ r.reassembled = r.plain := by
  rw [assemble.eq_def] at h
  split at h
  · cases domain with
    | authorization =>
      obtain ⟨f, -, hr⟩ := exists_of_bind_eq_ok h
      cases hr
      exact ⟨rfl, rfl⟩
    | dispute =>
      obtain ⟨f, hf, hr⟩ := exists_of_bind_eq_ok h
      cases hr
      exact ⟨rfl, congrArg dispute (DisputeFacts.counted_of_assemble hf)⟩
    | creditLineIncrease =>
      obtain ⟨f, -, hr⟩ := exists_of_bind_eq_ok h
      cases hr
      exact ⟨rfl, rfl⟩
  · cases h

/-- A record and a copy of it are decided as they are judged. -/
theorem unchangedBy_eq {r copy : FactRecord} {field : String} {value : Json}
    (h : r.withFact field value = .ok copy) (mode : Mode) :
    r.unchangedBy field value mode =
      .ok ((r.judge mode).1.decision == (copy.judge mode).1.decision) := by
  obtain ⟨before, hbefore, hdecision⟩ := r.exists_decide mode
  obtain ⟨after, hafter, hdecision'⟩ := copy.exists_decide mode
  rw [unchangedBy, h, ← hdecision, ← hdecision']
  simp only [bind, Except.bind, hbefore, hafter]
  rfl

end FactRecord

open FactRecord in
/-- Every declared fact of an assembled record can be replaced by its own value. If no zero has a
sign, this gives the record itself, but for the day count of a dispute of which a date is replaced:
this count is derived from the dates again. Only a count other than the dates give can change the
decision. -/
theorem withFact_own_value {domain : Domain} {request : Json} {r : FactRecord} {field : String}
    (hassembled : assemble domain request = .ok r)
    (hdeclared : domain.policy.declares field = true) :
    ∃ value copy, r.toJson.at? [field] = some value ∧ r.withFact field value = .ok copy ∧
      (r.hasNegativeZero = false →
        copy = r.recounted field ∧ (copy = r ↔ r.recounts field = false)) ∧
      ∀ mode, r.unchangedBy field value mode =
          .ok ((r.judge mode).1.decision == ((r.recounted field).judge mode).1.decision) ∧
        (r.recounts field = false → r.unchangedBy field value mode = .ok true) := by
  obtain ⟨rfl, hcounted⟩ := reassembled_of_assemble hassembled
  obtain ⟨value, hvalue⟩ := exists_lookup_members hdeclared
  have hreplaced : r.withFact field value = .ok (r.recounted field).plain :=
    withFact_own hcounted hdeclared hvalue
  have hunchanged := unchangedBy_eq hreplaced
  rw [at?_toJson]
  refine ⟨value, _, hvalue, hreplaced, fun hsigns => ?_, fun mode => ?_⟩
  · rw [plain_recounted hsigns]
    exact ⟨rfl, r.recounted_eq_self_iff field⟩
  · rw [hunchanged mode, judge_plain]
    refine ⟨rfl, fun hrecounts => ?_⟩
    rw [(r.recounted_eq_self_iff field).mpr hrecounts, beq_self_eq_true]

/-- A dispute over a payment that was charged twice, with a day count that its dates do not give. -/
def miscountedRequest : Json :=
  .ofMembers [("duplicate_charge", .bool true), ("transaction_date", .string "2025-05-01"),
    ("claim_date", .string "2025-09-15"), ("days_since_transaction", .integer 5)]

/-- The record of the miscounted dispute. -/
def miscountedDispute : FactRecord :=
  .dispute ⟨some true, Date.of? 2025 5 1, Date.of? 2025 9 15, some 5⟩

theorem assemble_miscountedRequest :
    FactRecord.assemble .dispute miscountedRequest = .ok miscountedDispute := by
  rfl

/-- The claim date is replaced by itself, and the record gets the count that its dates give; the
flag is replaced by itself, and nothing changes. -/
theorem withFact_own_value_miscounted :
    (∃ value copy, miscountedDispute.toJson.at? ["claim_date"] = some value ∧
      miscountedDispute.withFact "claim_date" value = .ok copy ∧
      copy = miscountedDispute.recounted "claim_date" ∧ copy ≠ miscountedDispute) ∧
    ∃ value, miscountedDispute.toJson.at? ["duplicate_charge"] = some value ∧
      miscountedDispute.withFact "duplicate_charge" value = .ok miscountedDispute ∧
      miscountedDispute.unchangedBy "duplicate_charge" value .hard = .ok true := by
  have hdate : Domain.dispute.policy.declares "claim_date" = true := by decide
  have hflag : Domain.dispute.policy.declares "duplicate_charge" = true := by decide
  have hsigns : miscountedDispute.hasNegativeZero = false := by decide
  constructor
  · obtain ⟨value, copy, hvalue, hreplaced, hcopy, -⟩ :=
      withFact_own_value assemble_miscountedRequest hdate
    obtain ⟨hcopy, hsame⟩ := hcopy hsigns
    refine ⟨value, copy, hvalue, hreplaced, hcopy, ?_⟩
    rw [Ne, hsame]
    decide
  · obtain ⟨value, copy, hvalue, hreplaced, hcopy, hprobe⟩ :=
      withFact_own_value assemble_miscountedRequest hflag
    have hkept : miscountedDispute.recounts "duplicate_charge" = false := by decide
    obtain rfl := (hcopy hsigns).2.mpr hkept
    exact ⟨value, hvalue, hreplaced, (hprobe .hard).2 hkept⟩

/-- A date replaced by itself can change the record and its decision. -/
theorem own_value_not_kept :
    FactRecord.assemble .dispute miscountedRequest = .ok miscountedDispute ∧
      ∃ value copy, miscountedDispute.toJson.at? ["transaction_date"] = some value ∧
        miscountedDispute.withFact "transaction_date" value = .ok copy ∧
        copy ≠ miscountedDispute ∧
        miscountedDispute.unchangedBy "transaction_date" value .hard = .ok false := by
  have hdate : miscountedDispute.members.lookup "transaction_date" =
      some (.string "2025-05-01") := by
    rfl
  have hreplaced := FactRecord.withFact_own rfl (by decide) hdate
  refine ⟨assemble_miscountedRequest, _, _, ?_, hreplaced, ?_, ?_⟩
  · rw [FactRecord.at?_toJson, hdate]
  · rw [FactRecord.plain_recounted (by decide), Ne, FactRecord.recounted_eq_self_iff]
    decide
  · rw [FactRecord.unchangedBy_eq hreplaced]
    rfl

end Verdict
