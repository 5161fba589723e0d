import Verdict.Proofs.DateText
import Verdict.Proofs.DecimalText
import Verdict.Proofs.RecordLookup
import Verdict.Request.Assembly

/-!
# Assembling a flat object

A flat object states each fact of a record under its own name, an unknown one as null, and has no
other members that a field reads. Assembled again it gives the record back, but for two things: a
zero has lost its sign, and a day count that is not stated follows from the two dates.
-/

namespace Verdict

open FactRecord (stated)

/-! ## Reading back the value of a fact -/

theorem Decimal.ofJson?_toJson (d : Decimal) :
    Decimal.ofJson? (Value.decimal d).toJson = some d.plain := by
  simp [Value.toJson, Decimal.ofJson?, Decimal.text]

theorem Date.ofJson?_toJson (d : Date) : Date.ofJson? (Value.date d).toJson = some d := by
  simp [Value.toJson, Date.ofJson?, Date.text]

theorem int64OfJson?_toJson (n : Int64) : int64OfJson? (Value.int n).toJson = some n := by
  have hrange : -2 ^ 63 ≤ n.toInt ∧ n.toInt < 2 ^ 63 := ⟨n.le_toInt, n.toInt_lt⟩
  simp only [Value.toJson, int64OfJson?, int64?, if_pos hrange, Int64.ofInt_toInt]

/-- Null is no value of a fact. -/
theorem Value.isNull_toJson (v : Value) : v.toJson.isNull = false := by
  cases v <;> rfl

/-! ## Fields of a flat object -/

/-- The members state the listed facts and nothing else. -/
def FlatMembers (fields : List (String × Option Value)) (members : List (String × Json)) : Prop :=
  ∀ key, members.lookup key = (fields.lookup key).map stated

/-- The members have none but the listed names. -/
def StatesOnly (names : List String) (members : List (String × Json)) : Prop :=
  ∀ key, key ∉ names → members.lookup key = none

theorem FlatMembers.statesOnly {fields : List (String × Option Value)}
    {members : List (String × Json)} (h : FlatMembers fields members) :
    StatesOnly (fields.map (·.1)) members := by
  intro key hkey
  rw [h, Keyed.lookup_eq_none_of_not_mem hkey, Option.map_none]

/-- The first spelling of a field is its own name, and no other one starts with a listed name. -/
def Field.IsFlatIn (field : Field) (names : List String) : Prop :=
  ∃ others, field.spellings = ⟨[field.fact], false⟩ :: others ∧
    ∀ s ∈ others, ∃ key path, s.path = key :: path ∧ key ∉ names

namespace Field

variable {names : List String} {fields : List (String × Option Value)}
  {members : List (String × Json)} {field : Field}

/-- No other spelling makes the value under the name of the fact a container. -/
theorem goesDeeper_own (hfield : field.IsFlatIn names) (hfact : field.fact ∈ names) :
    goesDeeper field.spellings [field.fact] = false := by
  obtain ⟨others, hspellings, hothers⟩ := hfield
  rw [goesDeeper, hspellings, List.any_eq_false]
  intro s hs
  rcases List.mem_cons.mp hs with rfl | hs
  · simp
  · obtain ⟨key, path, hpath, hkey⟩ := hothers s hs
    have hne : field.fact ≠ key := ne_of_mem_of_not_mem hfact hkey
    simp [hpath, hne]

/-- Where nothing but the listed names is stated, a field is found under its own name. -/
theorem find?_stated (hfield : field.IsFlatIn names) (hfact : field.fact ∈ names)
    (h : StatesOnly names members) {value : Json}
    (hlookup : members.lookup field.fact = some value) :
    field.find? (.object members) = if value.isNull then none else some (value, false) := by
  have hdeeper := goesDeeper_own hfield hfact
  obtain ⟨others, hspellings, hothers⟩ := hfield
  have hrest : others.findSome? (stated? field.spellings (.object members)) = none := by
    rw [List.findSome?_eq_none_iff]
    intro s hs
    obtain ⟨key, path, hpath, hkey⟩ := hothers s hs
    rw [stated?, hpath, Json.at?, h key hkey, Option.bind_none]
  have hown : Json.at? [field.fact] (.object members) = some value := by
    rw [Json.at?, hlookup]
    rfl
  have hfind : field.find? (.object members) =
      ((⟨[field.fact], false⟩ : Spelling) :: others).findSome?
        (stated? field.spellings (.object members)) := by
    rw [← hspellings]
    rfl
  rw [hfind, List.findSome?_cons, hrest, stated?, hown]
  simp only [hdeeper, Bool.and_false, Bool.or_false]
  cases value.isNull <;> rfl

theorem find?_unstated (hfield : field.IsFlatIn names) (h : StatesOnly names members)
    (hlookup : members.lookup field.fact = none) : field.find? (.object members) = none := by
  obtain ⟨others, hspellings, hothers⟩ := hfield
  rw [find?, List.findSome?_eq_none_iff]
  intro s hs
  rw [hspellings] at hs
  rcases List.mem_cons.mp hs with rfl | hs
  · rw [stated?, Json.at?, hlookup, Option.bind_none]
  · obtain ⟨key, path, hpath, hkey⟩ := hothers s hs
    rw [stated?, hpath, Json.at?, h key hkey, Option.bind_none]

/-- In a flat object a field is found under its own name or not at all. -/
theorem find?_flat (hmembers : FlatMembers fields members)
    (hfield : field.IsFlatIn (fields.map (·.1))) {value : Option Value}
    (hvalue : fields.lookup field.fact = some value) :
    field.find? (.object members) = value.map fun v => (v.toJson, false) := by
  have hfact : field.fact ∈ fields.map (·.1) := Keyed.mem_of_lookup_eq_some hvalue
  have hlookup : members.lookup field.fact = some (stated value) := by
    rw [hmembers, hvalue, Option.map_some]
  rw [find?_stated hfield hfact hmembers.statesOnly hlookup]
  cases value with
  | none => rfl
  | some v => simp [stated, v.isNull_toJson]

/-- A field of a flat object is read as its value, up to what reading does to a written value. -/
theorem read_flat {α : Type} (kind : Value.Kind) (ofJson? : Json → Bool → Option α)
    {encode : α → Value} {normal : α → α}
    (hread : ∀ a, ofJson? (encode a).toJson false = some (normal a))
    (hmembers : FlatMembers fields members) (hfield : field.IsFlatIn (fields.map (·.1)))
    {value : Option α} (hvalue : fields.lookup field.fact = some (value.map encode)) :
    field.read kind ofJson? (.object members) = .ok (value.map normal) := by
  rw [Field.read, find?_flat hmembers hfield hvalue]
  cases value with
  | none => rfl
  | some a => simp [hread]

theorem decimal_flat (hmembers : FlatMembers fields members)
    (hfield : field.IsFlatIn (fields.map (·.1))) {value : Option Decimal}
    (hvalue : fields.lookup field.fact = some (value.map .decimal)) :
    field.decimal (.object members) = .ok (value.map Decimal.plain) :=
  read_flat .decimal (fun v _ => Decimal.ofJson? v) Decimal.ofJson?_toJson hmembers hfield hvalue

theorem int_flat (hmembers : FlatMembers fields members)
    (hfield : field.IsFlatIn (fields.map (·.1))) {value : Option Int64}
    (hvalue : fields.lookup field.fact = some (value.map .int)) :
    field.int (.object members) = .ok value := by
  have hread : ∀ n, int64OfJson? (Value.int n).toJson = some (id n) := int64OfJson?_toJson
  have h := read_flat .int (fun v _ => int64OfJson? v) hread hmembers hfield hvalue
  rwa [Option.map_id] at h

theorem date_flat (hmembers : FlatMembers fields members)
    (hfield : field.IsFlatIn (fields.map (·.1))) {value : Option Date}
    (hvalue : fields.lookup field.fact = some (value.map .date)) :
    field.date (.object members) = .ok value := by
  have hread : ∀ d, Date.ofJson? (Value.date d).toJson = some (id d) := Date.ofJson?_toJson
  have h := read_flat .date (fun v _ => Date.ofJson? v) hread hmembers hfield hvalue
  rwa [Option.map_id] at h

theorem bool_flat (hmembers : FlatMembers fields members)
    (hfield : field.IsFlatIn (fields.map (·.1))) {value : Option Bool}
    (hvalue : fields.lookup field.fact = some (value.map .bool)) :
    field.bool (.object members) = .ok value := by
  have hread : ∀ b, (boolOfJson? (Value.bool b).toJson).map (· != false) = some (id b) := by
    intro b
    cases b <;> rfl
  have h := read_flat .bool (fun v negated => (boolOfJson? v).map (· != negated)) hread hmembers
    hfield hvalue
  rwa [Option.map_id] at h

end Field

/-! ## Records -/

/-- The facts with no sign on a zero. -/
def AuthorizationFacts.plain (f : AuthorizationFacts) : AuthorizationFacts :=
  { f with
    amount := f.amount.map Decimal.plain
    availableBalance := f.availableBalance.map Decimal.plain
    creditLimit := f.creditLimit.map Decimal.plain
    riskScore := f.riskScore.map Decimal.plain }

/-- The facts with no sign on a zero. -/
def CreditLineFacts.plain (f : CreditLineFacts) : CreditLineFacts :=
  { f with
    amountRequested := f.amountRequested.map Decimal.plain
    currentLimit := f.currentLimit.map Decimal.plain
    income := f.income.map Decimal.plain }

/-- The facts with the day count that the two dates give, if no count is stated. -/
def DisputeFacts.counted (f : DisputeFacts) : DisputeFacts :=
  { f with daysSinceTransaction :=
      f.daysSinceTransaction.or (daysBetween? f.transactionDate f.claimDate) }

/-- The facts as they are stated. No day count follows from the dates. -/
def DisputeFacts.read (request : Json) : Except RequestError DisputeFacts := do
  let duplicateCharge ← Field.duplicateCharge.bool request
  let transactionDate ← Field.transactionDate.date request
  let claimDate ← Field.claimDate.date request
  let daysSinceTransaction ← Field.daysSinceTransaction.int request
  pure { duplicateCharge, transactionDate, claimDate, daysSinceTransaction }

theorem DisputeFacts.assemble_eq (request : Json) :
    assemble request = counted <$> read request := by
  simp only [assemble, read, map_bind, map_pure]
  rfl

theorem AuthorizationFacts.assemble_flat (f : AuthorizationFacts) {members : List (String × Json)}
    (h : FlatMembers f.fields members) : assemble (.object members) = .ok f.plain := by
  have hamount : Field.amount.decimal (.object members) = .ok (f.amount.map Decimal.plain) :=
    Field.decimal_flat h ⟨[], rfl, by simp⟩ rfl
  have hbalance : Field.availableBalance.decimal (.object members) =
      .ok (f.availableBalance.map Decimal.plain) :=
    Field.decimal_flat h ⟨_, rfl, by simp [fields]⟩ rfl
  have hlimit : Field.creditLimit.decimal (.object members) =
      .ok (f.creditLimit.map Decimal.plain) :=
    Field.decimal_flat h ⟨_, rfl, by simp [fields]⟩ rfl
  have hrisk : Field.riskScore.decimal (.object members) = .ok (f.riskScore.map Decimal.plain) :=
    Field.decimal_flat h ⟨_, rfl, by simp [fields]⟩ rfl
  have hcode : Field.merchantCategoryCode.int (.object members) = .ok f.merchantCategoryCode :=
    Field.int_flat h ⟨_, rfl, by simp [fields]⟩ rfl
  have hchannel : Field.cardNotPresent.bool (.object members) = .ok f.cardNotPresent :=
    Field.bool_flat h ⟨_, rfl, by simp [fields]⟩ rfl
  have hvelocity : Field.velocity.int (.object members) = .ok f.velocity :=
    Field.int_flat h ⟨_, rfl, by simp [fields]⟩ rfl
  rw [assemble, hchannel, hamount, hbalance, hlimit, hrisk, hcode, hvelocity]
  rfl

theorem CreditLineFacts.assemble_flat (f : CreditLineFacts) {members : List (String × Json)}
    (h : FlatMembers f.fields members) : assemble (.object members) = .ok f.plain := by
  have hrequested : Field.amountRequested.decimal (.object members) =
      .ok (f.amountRequested.map Decimal.plain) :=
    Field.decimal_flat h ⟨[], rfl, by simp⟩ rfl
  have hlimit : Field.currentLimit.decimal (.object members) =
      .ok (f.currentLimit.map Decimal.plain) :=
    Field.decimal_flat h ⟨[], rfl, by simp⟩ rfl
  have hincome : Field.income.decimal (.object members) = .ok (f.income.map Decimal.plain) :=
    Field.decimal_flat h ⟨[], rfl, by simp⟩ rfl
  have htenure : Field.tenureMonths.int (.object members) = .ok f.tenureMonths :=
    Field.int_flat h ⟨[], rfl, by simp⟩ rfl
  have hdelinquent : Field.delinquent.bool (.object members) = .ok f.delinquent :=
    Field.bool_flat h ⟨[], rfl, by simp⟩ rfl
  rw [assemble, hrequested, hlimit, hincome, htenure, hdelinquent]
  rfl

theorem DisputeFacts.read_flat (f : DisputeFacts) {members : List (String × Json)}
    (h : FlatMembers f.fields members) : read (.object members) = .ok f := by
  have hduplicate : Field.duplicateCharge.bool (.object members) = .ok f.duplicateCharge :=
    Field.bool_flat h ⟨[], rfl, by simp⟩ rfl
  have hstart : Field.transactionDate.date (.object members) = .ok f.transactionDate :=
    Field.date_flat h ⟨_, rfl, by simp [fields]⟩ rfl
  have hfinish : Field.claimDate.date (.object members) = .ok f.claimDate :=
    Field.date_flat h ⟨[], rfl, by simp⟩ rfl
  have hdays : Field.daysSinceTransaction.int (.object members) = .ok f.daysSinceTransaction :=
    Field.int_flat h ⟨_, rfl, by simp [fields]⟩ rfl
  rw [read, hduplicate, hstart, hfinish, hdays]
  rfl

theorem DisputeFacts.assemble_flat (f : DisputeFacts) {members : List (String × Json)}
    (h : FlatMembers f.fields members) : assemble (.object members) = .ok f.counted := by
  rw [assemble_eq, f.read_flat h, Except.map_ok]

/-- The record that its flat object is assembled to. -/
def FactRecord.reassembled : FactRecord → FactRecord
  | authorization f => authorization f.plain
  | dispute f => dispute f.counted
  | creditLineIncrease f => creditLineIncrease f.plain

theorem FactRecord.assemble_flat (r : FactRecord) {members : List (String × Json)}
    (h : FlatMembers r.fields members) : assemble r.domain (.object members) = .ok r.reassembled := by
  cases r with
  | authorization f =>
    simp only [assemble, domain, Json.isObject, if_true, f.assemble_flat h]
    rfl
  | dispute f =>
    simp only [assemble, domain, Json.isObject, if_true, f.assemble_flat h]
    rfl
  | creditLineIncrease f =>
    simp only [assemble, domain, Json.isObject, if_true, f.assemble_flat h]
    rfl

end Verdict
