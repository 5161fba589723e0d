import Verdict.Proofs.DateOrder
import Verdict.Proofs.Updates

/-!
# The day count of a dispute

In a run of updates the day count never goes stale. If it was set last, it is what it was set to;
if a date was changed since, or the count was taken away, it is the number of days between the two
dates. The other updates leave the dates and the count as they are.
-/

namespace Verdict

/-! ## The days between two dates -/

namespace Date

theorem julianDay_bounds (d : Date) : -1930999 ≤ d.julianDay ∧ d.julianDay ≤ 5373484 := by
  have hfirst : daysBeforeYear (-9999) = -3652425 := by decide
  have hlast : daysBeforeYear 10000 = 3652059 := by decide
  have hlow := daysBeforeYear_mono d.le_year
  have hyear : d.year < 10000 := by have := d.year_le; omega
  have hhigh := d.day_le_daysBeforeYear hyear
  have hday := d.one_le_day
  rw [hfirst] at hlow
  rw [hlast] at hhigh
  simp only [julianDay]
  omega

end Date

/-- The difference of the day numbers of two known dates. -/
def julianDifference? (start finish : Option Date) : Option Int := do
  let s ← start
  let f ← finish
  some (f.julianDay - s.julianDay)

/-- The difference of two day numbers is kept exactly in 64 bits. -/
theorem toInt_daysBetween? (start finish : Option Date) :
    (daysBetween? start finish).map Int64.toInt = julianDifference? start finish := by
  cases start with
  | none => rfl
  | some s =>
    cases finish with
    | none => rfl
    | some f =>
      have hs := s.julianDay_bounds
      have hf := f.julianDay_bounds
      have hexact : (Int64.ofInt (s.daysUntil f)).toInt = f.julianDay - s.julianDay := by
        rw [Date.daysUntil, Int64.toInt_ofInt_of_le] <;> omega
      exact congrArg some hexact

theorem toInt_of_int64? {n : Int} {m : Int64} (h : int64? n = some m) : m.toInt = n := by
  rw [int64?] at h
  split at h
  · rename_i hrange
    cases h
    exact Int64.toInt_ofInt_of_le hrange.1 hrange.2
  · cases h

/-! ## The last update of a count -/

/-- The update is one of the count or of a date. -/
def Update.touchesCount (u : Update) : Bool :=
  u.field ∈ ["transaction_date", "claim_date", "days_since_transaction"]

def Update.lastCounting? (log : List Update) : Option Update :=
  log.reverse.find? touchesCount

theorem Update.lastCounting?_concat (log : List Update) (u : Update) :
    lastCounting? (log ++ [u]) = if u.touchesCount then some u else lastCounting? log := by
  rw [lastCounting?, List.reverse_concat, List.find?_cons]
  cases u.touchesCount <;> rfl

namespace DisputeFacts

/-- The count is the one that was set, or else the one that the dates give. -/
def CountedBy (f : DisputeFacts) (u : Update) : Prop :=
  if u.field = "days_since_transaction" ∧ u.value.isNull = false then
    ∃ n, int64OfJson? u.value = some n ∧ f.daysSinceTransaction = some n
  else
    f.daysSinceTransaction.map Int64.toInt = julianDifference? f.transactionDate f.claimDate

theorem find?_daysSinceTransaction {value : Json} (h : value.isNull = false) :
    Field.daysSinceTransaction.find? (.object [("days_since_transaction", value)]) =
      some (value, false) := by
  simp [Field.find?, Field.daysSinceTransaction, Field.stated?, Field.goesDeeper, Json.at?, h]

/-- A count that was set by a number of the document is that number. -/
theorem CountedBy.of_integer {f : DisputeFacts} {u : Update} (h : f.CountedBy u)
    (hfield : u.field = "days_since_transaction") {n : Int} (hvalue : u.value = .integer n) :
    f.daysSinceTransaction.map Int64.toInt = some n := by
  have hstated : u.value.isNull = false := by rw [hvalue]; rfl
  rw [CountedBy, if_pos ⟨hfield, hstated⟩, hvalue] at h
  obtain ⟨m, hm, hdays⟩ := h
  rw [hdays, Option.map_some, toInt_of_int64? hm]

theorem isSome_of_counted {f : DisputeFacts} (h : f.counted = f)
    (hstart : f.transactionDate.isSome) (hfinish : f.claimDate.isSome) :
    f.daysSinceTransaction.isSome := by
  obtain ⟨start, hstart⟩ := Option.isSome_iff_exists.mp hstart
  obtain ⟨finish, hfinish⟩ := Option.isSome_iff_exists.mp hfinish
  rw [← h]
  simp [counted, hstart, hfinish, daysBetween?]

/-- A count is read as the number that is stated, and null as none. -/
theorem daysSinceTransaction_of_read {value : Json} {g : DisputeFacts}
    (h : read (.object [("days_since_transaction", value)]) = .ok g) :
    int64OfJson? value = g.daysSinceTransaction ∧
      (g.daysSinceTransaction = none ↔ value.isNull = true) := by
  rw [read] at h
  obtain ⟨_, -, h⟩ := exists_of_bind_eq_ok h
  obtain ⟨_, -, h⟩ := exists_of_bind_eq_ok h
  obtain ⟨_, -, h⟩ := exists_of_bind_eq_ok h
  obtain ⟨days, hdays, h⟩ := exists_of_bind_eq_ok h
  cases h
  cases hvalue : value.isNull with
  | true =>
    cases value <;> cases hvalue
    cases hdays
    exact ⟨rfl, by simp⟩
  | false =>
    rw [Field.int, Field.read, find?_daysSinceTransaction hvalue] at hdays
    cases hread : int64OfJson? value with
    | some n =>
      simp only [hread] at hdays
      cases hdays
      exact ⟨rfl, by simp⟩
    | none =>
      simp only [hread] at hdays
      cases hdays

theorem counted_revised (f g : DisputeFacts) (fact : String) :
    (f.revised fact g).counted = f.revised fact g := by
  rw [revised]
  split
  · simp [counted, recounted]
  · exact counted_counted _

/-- An update of the count or of a date settles the count. -/
theorem countedBy_revised (f : DisputeFacts) {g : DisputeFacts} {u : Update}
    (hu : u.touchesCount = true) (hg : read (.object [(u.field, u.value)]) = .ok g) :
    (f.revised u.field g).CountedBy u := by
  obtain ⟨field, value⟩ := u
  by_cases hdate : field = "transaction_date" ∨ field = "claim_date"
  · have hfield : field ≠ "days_since_transaction" := by
      rcases hdate with rfl | rfl <;> decide
    rw [revised, if_pos hdate, CountedBy, if_neg fun h => hfield h.1]
    exact toInt_daysBetween? _ _
  · obtain rfl : field = "days_since_transaction" := by
      simpa [Update.touchesCount, not_or.mp hdate] using hu
    obtain ⟨hvalue, hnull⟩ := daysSinceTransaction_of_read hg
    rw [revised, if_neg hdate, CountedBy]
    cases hdays : g.daysSinceTransaction with
    | none =>
      rw [if_neg (by simp [hnull.mp hdays])]
      simp only [counted, taking, pick, hdays]
      exact toInt_daysBetween? _ _
    | some n =>
      have hstated : value.isNull = false := by
        rw [← Bool.not_eq_true, ← hnull, hdays]
        exact Option.some_ne_none n
      rw [if_pos ⟨rfl, hstated⟩]
      exact ⟨n, hvalue.trans hdays, by simp [counted, taking, pick, hdays]⟩

/-- The other updates leave the dates and the count. -/
theorem revised_untouched {f : DisputeFacts} (hf : f.counted = f) (g : DisputeFacts) {u : Update}
    (hu : u.touchesCount = false) :
    f.revised u.field g =
      { f with duplicateCharge := (f.revised u.field g).duplicateCharge } := by
  obtain ⟨field, value⟩ := u
  simp only [Update.touchesCount, List.mem_cons, List.not_mem_nil, or_false,
    decide_eq_false_iff_not, not_or] at hu
  obtain ⟨hstart, hfinish, hdays⟩ := hu
  have hcount : f.daysSinceTransaction.or (daysBetween? f.transactionDate f.claimDate) =
      f.daysSinceTransaction := congrArg daysSinceTransaction hf
  simp [revised, taking, pick, counted, hstart, hfinish, hdays, hcount]

/-- What holds of the count after the updates of a run. -/
structure UpToDate (first : DisputeFacts) (log : List Update) (f : DisputeFacts) : Prop where
  counted : f.counted = f
  countedBy : ∀ u, Update.lastCounting? log = some u → f.CountedBy u
  untouched : Update.lastCounting? log = none →
    f.daysSinceTransaction = first.daysSinceTransaction

theorem UpToDate.step {first f g : DisputeFacts} {log : List Update} (h : UpToDate first log f)
    {u : Update} (hg : read (.object [(u.field, u.value)]) = .ok g) :
    UpToDate first (log ++ [u]) (f.revised u.field g) := by
  have hcounted := f.counted_revised g u.field
  have hlast := Update.lastCounting?_concat log u
  cases hu : u.touchesCount with
  | true =>
    rw [if_pos hu] at hlast
    refine ⟨hcounted, fun last h => ?_, fun h => ?_⟩
    · obtain rfl : u = last := Option.some.inj (hlast.symm.trans h)
      exact f.countedBy_revised hu hg
    · cases hlast.symm.trans h
  | false =>
    rw [hu, if_neg Bool.false_ne_true] at hlast
    rw [revised_untouched h.counted g hu] at hcounted ⊢
    exact ⟨hcounted, fun last hl => h.countedBy last (hlast.symm.trans hl),
      fun hl => h.untouched (hlast.symm.trans hl)⟩

end DisputeFacts

namespace FactRecord

theorem Reaches.upToDate {first : DisputeFacts} (hfirst : first.counted = first)
    {log : List Update} {s : FactRecord} (h : (dispute first).Reaches log s) :
    ∃ f, s = dispute f ∧ DisputeFacts.UpToDate first log f := by
  induction h with
  | start =>
    exact ⟨first, rfl, hfirst, fun _ hlast => (nomatch hlast), fun _ => rfl⟩
  | @step log s t u hs hu ih =>
    obtain ⟨f, rfl, hf⟩ := ih
    rw [withFact_dispute f (declares_of_withFact hu), map_eq_pure_bind] at hu
    obtain ⟨g, hg, ht⟩ := exists_of_bind_eq_ok hu
    exact ⟨f.revised u.field g, (Except.ok.inj ht).symm, hf.step hg⟩

end FactRecord

open FactRecord in
/-- After every run of updates of an assembled dispute the day count is known if both dates are.
If the last accepted update of the count or of a date set the count, the count has that value;
else it is the difference of the dates. Without such an update it is as it was. -/
theorem dayCount_upToDate {request : Json} {r : FactRecord}
    (h : assemble .dispute request = .ok r) (updates : List Update) :
    ∃ first f, r = dispute first ∧ r.updateAll updates = dispute f ∧
      (f.transactionDate.isSome → f.claimDate.isSome → f.daysSinceTransaction.isSome) ∧
      (∀ u, Update.lastCounting? (r.accepted updates) = some u → f.CountedBy u ∧
        ∀ n, u.field = "days_since_transaction" → u.value = .integer n →
          f.daysSinceTransaction.map Int64.toInt = some n) ∧
      (Update.lastCounting? (r.accepted updates) = none →
        f.daysSinceTransaction = first.daysSinceTransaction) := by
  obtain ⟨hdomain, hcounted⟩ := reassembled_of_assemble h
  cases r with
  | authorization f => cases hdomain
  | creditLineIncrease f => cases hdomain
  | dispute first =>
    have hfirst : first.counted = first := dispute.inj hcounted
    obtain ⟨f, hf, hupToDate⟩ :=
      ((dispute first).reaches_updateAll updates).upToDate hfirst
    refine ⟨first, f, rfl, hf, DisputeFacts.isSome_of_counted hupToDate.counted, fun u hu => ?_,
      hupToDate.untouched⟩
    have hu := hupToDate.countedBy u hu
    exact ⟨hu, fun n hfield hvalue => hu.of_integer hfield hvalue⟩

/-- A claim that is moved to a later date after its count was set. -/
def movedClaim : List Update :=
  [⟨"days_since_transaction", .integer 3⟩, ⟨"transaction_date", .string "2025-02-30"⟩,
    ⟨"claim_date", .string "2025-09-16"⟩, ⟨"duplicate_charge", .bool false⟩]

/-- The count that was set does not outlast the new date. -/
theorem dayCount_upToDate_movedClaim :
    FactRecord.assemble .dispute miscountedRequest = .ok miscountedDispute ∧
      ∃ f, miscountedDispute.updateAll movedClaim = .dispute f ∧
        f.daysSinceTransaction.map Int64.toInt = some 138 := by
  obtain ⟨first, f, -, hf, -, hlast, -⟩ := dayCount_upToDate assemble_miscountedRequest movedClaim
  have hcounted : f.CountedBy ⟨"claim_date", .string "2025-09-16"⟩ := (hlast _ rfl).1
  refine ⟨assemble_miscountedRequest, f, hf, ?_⟩
  rw [DisputeFacts.CountedBy, if_neg (by simp)] at hcounted
  rw [hcounted]
  cases hf
  decide

end Verdict
