import Verdict.Proofs.Replacement

/-!
# One fact at a time

A flat object into which one more fact is put is assembled as before, and the new fact is the one
of the object that states it alone. So whether a fact can be replaced depends on the fact and its
value only. The other facts stay, but for the signs of zeros and the day count of a dispute.
-/

namespace Verdict

/-- The new value under the given name, the old one under any other. -/
def pick {α : Type} (fact name : String) (old new : α) : α :=
  if fact = name then new else old

section Pick

variable {α : Type} {fact name : String} {a b c : α}

@[simp] theorem pick_self : pick fact name a a = a := by
  simp [pick]

@[simp] theorem pick_pick_same : pick fact name (pick fact name a b) c = pick fact name a c := by
  by_cases h : fact = name <;> simp [pick, h]

@[simp] theorem pick_pick_other : pick fact name a (pick fact name b c) = pick fact name a c := by
  by_cases h : fact = name <;> simp [pick, h]

@[simp] theorem map_pick {β : Type} (f : α → β) (a b : Option α) :
    (pick fact name a b).map f = pick fact name (a.map f) (b.map f) := by
  by_cases h : fact = name <;> simp [pick, h]

end Pick

theorem statesOnly_singleton {names : List String} {fact : String} (hfact : fact ∈ names)
    (value : Json) : StatesOnly names [(fact, value)] := by
  intro key hkey
  rw [Keyed.lookup_cons_eq, if_neg (ne_of_mem_of_not_mem hfact hkey).symm, List.lookup_nil]

theorem StatesOnly.insert {names : List String} {members : List (String × Json)}
    (h : StatesOnly names members) {fact : String} (hfact : fact ∈ names) (value : Json) :
    StatesOnly names (Keyed.insert fact value members) := by
  intro key hkey
  rw [Keyed.lookup_insert, if_neg (ne_of_mem_of_not_mem hfact hkey).symm, h key hkey]

/-! ## Reading a field -/

namespace Field

variable {α : Type} {kind : Value.Kind} {ofJson? : Json → Bool → Option α} {field : Field}
  {names : List String} {members members' : List (String × Json)}

theorem read_congr {request request' : Json}
    (h : ∀ s ∈ field.spellings, request.at? s.path = request'.at? s.path) :
    field.read kind ofJson? request = field.read kind ofJson? request' := by
  have hstated : ∀ s ∈ field.spellings,
      stated? field.spellings request s = stated? field.spellings request' s := by
    intro s hs
    rw [stated?, stated?, h s hs]
  have hfind : field.find? request = field.find? request' := by
    rw [find?, find?, ← List.head?_filterMap, ← List.head?_filterMap, List.filterMap_congr hstated]
  rw [read, read, hfind]

/-- Where nothing but the listed names is stated, a field is read under its own name. -/
theorem read_eq_of_lookup (hfield : field.IsFlatIn names) (h : StatesOnly names members)
    (h' : StatesOnly names members')
    (hlookup : members.lookup field.fact = members'.lookup field.fact) :
    field.read kind ofJson? (.object members) = field.read kind ofJson? (.object members') := by
  obtain ⟨others, hspellings, hothers⟩ := hfield
  refine read_congr fun s hs => ?_
  rw [hspellings] at hs
  rcases List.mem_cons.mp hs with rfl | hs
  · rw [Json.at?, Json.at?, hlookup]
  · obtain ⟨key, path, hpath, hkey⟩ := hothers s hs
    rw [hpath, Json.at?, Json.at?, h key hkey, h' key hkey]

/-- The members that an object has are all that is read from it, not their order. -/
theorem read_eq_of_members (h : ∀ key, members.lookup key = members'.lookup key)
    (hfield : ∀ s ∈ field.spellings, s.path ≠ []) :
    field.read kind ofJson? (.object members) = field.read kind ofJson? (.object members') := by
  refine read_congr fun s hs => ?_
  obtain ⟨key, path, hpath⟩ := List.exists_cons_of_ne_nil (hfield s hs)
  rw [hpath, Json.at?, Json.at?, h key]

theorem read_unstated (hfield : field.IsFlatIn names) (h : StatesOnly names members)
    (hlookup : members.lookup field.fact = none) :
    field.read kind ofJson? (.object members) = .ok none := by
  rw [read, find?_unstated hfield h hlookup]

/-- One more member counts for its own field only. -/
theorem read_insert (hfield : field.IsFlatIn names) (h : StatesOnly names members) {fact : String}
    (hfact : fact ∈ names) {old : Option α}
    (hold : field.read kind ofJson? (.object members) = .ok old) (value : Json) :
    field.read kind ofJson? (.object (Keyed.insert fact value members)) =
      pick fact field.fact old <$> field.read kind ofJson? (.object [(fact, value)]) := by
  by_cases hname : fact = field.fact
  · have hsame : field.read kind ofJson? (.object (Keyed.insert fact value members)) =
        field.read kind ofJson? (.object [(fact, value)]) := by
      refine read_eq_of_lookup hfield (h.insert hfact value) (statesOnly_singleton hfact value) ?_
      rw [Keyed.lookup_insert, Keyed.lookup_cons_eq, if_pos hname.symm, if_pos hname.symm]
    have hpick : pick fact field.fact old = id := by
      funext new
      rw [pick, if_pos hname, id]
    rw [hsame, hpick, id_map]
  · have hother : field.fact ≠ fact := fun h => hname h.symm
    have hkept : field.read kind ofJson? (.object (Keyed.insert fact value members)) = .ok old := by
      rw [← hold]
      refine read_eq_of_lookup hfield (h.insert hfact value) h ?_
      rw [Keyed.lookup_insert, if_neg hother]
    have hunstated : field.read kind ofJson? (.object [(fact, value)]) = .ok none := by
      refine read_unstated hfield (statesOnly_singleton hfact value) ?_
      rw [Keyed.lookup_cons_eq, if_neg hother, List.lookup_nil]
    rw [hkept, hunstated, Except.map_ok, pick, if_neg hname]

end Field

/-! ## Records -/

/-- The facts with the named one of others. -/
def AuthorizationFacts.taking (f : AuthorizationFacts) (fact : String) (g : AuthorizationFacts) :
    AuthorizationFacts where
  amount := pick fact "amount" f.amount g.amount
  availableBalance := pick fact "available_balance" f.availableBalance g.availableBalance
  creditLimit := pick fact "credit_limit" f.creditLimit g.creditLimit
  riskScore := pick fact "risk_score" f.riskScore g.riskScore
  merchantCategoryCode :=
    pick fact "merchant_category_code" f.merchantCategoryCode g.merchantCategoryCode
  cardNotPresent := pick fact "card_not_present" f.cardNotPresent g.cardNotPresent
  velocity := pick fact "velocity_1h" f.velocity g.velocity

def DisputeFacts.taking (f : DisputeFacts) (fact : String) (g : DisputeFacts) : DisputeFacts where
  duplicateCharge := pick fact "duplicate_charge" f.duplicateCharge g.duplicateCharge
  transactionDate := pick fact "transaction_date" f.transactionDate g.transactionDate
  claimDate := pick fact "claim_date" f.claimDate g.claimDate
  daysSinceTransaction :=
    pick fact "days_since_transaction" f.daysSinceTransaction g.daysSinceTransaction

def CreditLineFacts.taking (f : CreditLineFacts) (fact : String) (g : CreditLineFacts) :
    CreditLineFacts where
  amountRequested := pick fact "amount_requested" f.amountRequested g.amountRequested
  currentLimit := pick fact "current_limit" f.currentLimit g.currentLimit
  income := pick fact "income" f.income g.income
  tenureMonths := pick fact "tenure_months" f.tenureMonths g.tenureMonths
  delinquent := pick fact "delinquent" f.delinquent g.delinquent

section Insert

variable {members : List (String × Json)} {fact : String}

theorem AuthorizationFacts.assemble_insert {f : AuthorizationFacts}
    (h : StatesOnly (f.fields.map (·.1)) members) (hfact : fact ∈ f.fields.map (·.1))
    (hf : assemble (.object members) = .ok f) (value : Json) :
    assemble (.object (Keyed.insert fact value members)) =
      f.taking fact <$> assemble (.object [(fact, value)]) := by
  rw [assemble] at hf
  obtain ⟨channel, hchannel, hf⟩ := exists_of_bind_eq_ok hf
  obtain ⟨amount, hamount, hf⟩ := exists_of_bind_eq_ok hf
  obtain ⟨balance, hbalance, hf⟩ := exists_of_bind_eq_ok hf
  obtain ⟨limit, hlimit, hf⟩ := exists_of_bind_eq_ok hf
  obtain ⟨risk, hrisk, hf⟩ := exists_of_bind_eq_ok hf
  obtain ⟨code, hcode, hf⟩ := exists_of_bind_eq_ok hf
  obtain ⟨velocity, hvelocity, hf⟩ := exists_of_bind_eq_ok hf
  cases hf
  have hchannel' := Field.read_insert ⟨_, rfl, by simp [fields]⟩ h hfact hchannel value
  have hamount' := Field.read_insert ⟨[], rfl, by simp⟩ h hfact hamount value
  have hbalance' := Field.read_insert ⟨_, rfl, by simp [fields]⟩ h hfact hbalance value
  have hlimit' := Field.read_insert ⟨_, rfl, by simp [fields]⟩ h hfact hlimit value
  have hrisk' := Field.read_insert ⟨_, rfl, by simp [fields]⟩ h hfact hrisk value
  have hcode' := Field.read_insert ⟨_, rfl, by simp [fields]⟩ h hfact hcode value
  have hvelocity' := Field.read_insert ⟨_, rfl, by simp [fields]⟩ h hfact hvelocity value
  simp only [assemble, Field.bool, Field.decimal, Field.int, hchannel', hamount', hbalance',
    hlimit', hrisk', hcode', hvelocity', map_bind, map_pure, bind_map_left]
  rfl

theorem DisputeFacts.read_insert {f : DisputeFacts}
    (h : StatesOnly (f.fields.map (·.1)) members) (hfact : fact ∈ f.fields.map (·.1))
    (hf : read (.object members) = .ok f) (value : Json) :
    read (.object (Keyed.insert fact value members)) =
      f.taking fact <$> read (.object [(fact, value)]) := by
  rw [read] at hf
  obtain ⟨duplicate, hduplicate, hf⟩ := exists_of_bind_eq_ok hf
  obtain ⟨start, hstart, hf⟩ := exists_of_bind_eq_ok hf
  obtain ⟨finish, hfinish, hf⟩ := exists_of_bind_eq_ok hf
  obtain ⟨days, hdays, hf⟩ := exists_of_bind_eq_ok hf
  cases hf
  have hduplicate' := Field.read_insert ⟨[], rfl, by simp⟩ h hfact hduplicate value
  have hstart' := Field.read_insert ⟨_, rfl, by simp [fields]⟩ h hfact hstart value
  have hfinish' := Field.read_insert ⟨[], rfl, by simp⟩ h hfact hfinish value
  have hdays' := Field.read_insert ⟨_, rfl, by simp [fields]⟩ h hfact hdays value
  simp only [read, Field.bool, Field.date, Field.int, hduplicate', hstart', hfinish', hdays',
    map_bind, map_pure, bind_map_left]
  rfl

theorem CreditLineFacts.assemble_insert {f : CreditLineFacts}
    (h : StatesOnly (f.fields.map (·.1)) members) (hfact : fact ∈ f.fields.map (·.1))
    (hf : assemble (.object members) = .ok f) (value : Json) :
    assemble (.object (Keyed.insert fact value members)) =
      f.taking fact <$> assemble (.object [(fact, value)]) := by
  rw [assemble] at hf
  obtain ⟨requested, hrequested, hf⟩ := exists_of_bind_eq_ok hf
  obtain ⟨limit, hlimit, hf⟩ := exists_of_bind_eq_ok hf
  obtain ⟨income, hincome, hf⟩ := exists_of_bind_eq_ok hf
  obtain ⟨tenure, htenure, hf⟩ := exists_of_bind_eq_ok hf
  obtain ⟨delinquent, hdelinquent, hf⟩ := exists_of_bind_eq_ok hf
  cases hf
  have hrequested' := Field.read_insert ⟨[], rfl, by simp⟩ h hfact hrequested value
  have hlimit' := Field.read_insert ⟨[], rfl, by simp⟩ h hfact hlimit value
  have hincome' := Field.read_insert ⟨[], rfl, by simp⟩ h hfact hincome value
  have htenure' := Field.read_insert ⟨[], rfl, by simp⟩ h hfact htenure value
  have hdelinquent' := Field.read_insert ⟨[], rfl, by simp⟩ h hfact hdelinquent value
  simp only [assemble, Field.bool, Field.decimal, Field.int, hrequested', hlimit', hincome',
    htenure', hdelinquent', map_bind, map_pure, bind_map_left]
  rfl

end Insert

namespace FactRecord

/-- The record with the named fact of another one of its domain. -/
def taking (r : FactRecord) (fact : String) (s : FactRecord) : FactRecord :=
  match r, s with
  | authorization f, authorization g => authorization (f.taking fact g)
  | dispute f, dispute g => dispute (f.taking fact g)
  | creditLineIncrease f, creditLineIncrease g => creditLineIncrease (f.taking fact g)
  | _, _ => r

@[simp] theorem domain_taking (r s : FactRecord) (fact : String) :
    (r.taking fact s).domain = r.domain := by
  cases r <;> cases s <;> rfl

@[simp] theorem taking_self (r : FactRecord) (fact : String) : r.taking fact r = r := by
  cases r <;> simp [taking, AuthorizationFacts.taking, DisputeFacts.taking, CreditLineFacts.taking]

theorem plain_taking (r s : FactRecord) (fact : String) :
    (r.taking fact s).plain = r.plain.taking fact s.plain := by
  cases r <;> cases s <;>
    simp [taking, plain, AuthorizationFacts.taking, AuthorizationFacts.plain,
      CreditLineFacts.taking, CreditLineFacts.plain]

/-- Of two facts that are put in under one name, the later one stays. -/
theorem taking_taking_same {r t : FactRecord} (h : t.domain = r.domain) (s : FactRecord)
    (fact : String) : (r.taking fact s).taking fact t = r.taking fact t := by
  cases r <;> cases t <;> cases h <;> cases s <;>
    simp [taking, AuthorizationFacts.taking, DisputeFacts.taking, CreditLineFacts.taking]

theorem taking_taking_other {r s : FactRecord} (h : s.domain = r.domain) (t : FactRecord)
    (fact : String) : t.taking fact (r.taking fact s) = t.taking fact s := by
  cases r <;> cases s <;> cases h <;> cases t <;>
    simp [taking, AuthorizationFacts.taking, DisputeFacts.taking, CreditLineFacts.taking]

theorem flatMembers (r : FactRecord) : FlatMembers r.fields r.members :=
  r.lookup_members

/-- A flat object with one more fact is assembled to the record that it gave before, with the new
fact in it. -/
theorem assemble_insert {r : FactRecord} (hdomain : r.domain ≠ .dispute)
    {members : List (String × Json)} (h : StatesOnly (r.fields.map (·.1)) members)
    (hr : assemble r.domain (.object members) = .ok r) {fact : String}
    (hfact : r.domain.policy.declares fact = true) (value : Json) :
    assemble r.domain (.object (Keyed.insert fact value members)) =
      r.taking fact <$> assemble r.domain (.object [(fact, value)]) := by
  rw [declares_iff] at hfact
  cases r with
  | authorization f =>
    obtain ⟨g, hg, hf⟩ := exists_of_bind_eq_ok hr
    cases hf
    have hinsert := AuthorizationFacts.assemble_insert h hfact hg value
    simp only [assemble, domain, Json.isObject, if_true, hinsert, bind_map_left, map_bind, map_pure]
    rfl
  | dispute f => exact absurd rfl hdomain
  | creditLineIncrease f =>
    obtain ⟨g, hg, hf⟩ := exists_of_bind_eq_ok hr
    cases hf
    have hinsert := CreditLineFacts.assemble_insert h hfact hg value
    simp only [assemble, domain, Json.isObject, if_true, hinsert, bind_map_left, map_bind, map_pure]
    rfl

theorem reassembled_of_ne_dispute {r : FactRecord} (h : r.domain ≠ .dispute) :
    r.reassembled = r.plain := by
  cases r with
  | authorization f => rfl
  | dispute f => exact absurd rfl h
  | creditLineIncrease f => rfl

theorem withFact_of_ne_dispute {r : FactRecord} (hdomain : r.domain ≠ .dispute) {fact : String}
    (hfact : r.domain.policy.declares fact = true) (value : Json) :
    r.withFact fact value =
      r.plain.taking fact <$> assemble r.domain (.object [(fact, value)]) := by
  have hdate : ¬(fact = "transaction_date" ∨ fact = "claim_date") :=
    fun h => hdomain (domain_eq_dispute h hfact)
  have hnames : StatesOnly (r.plain.fields.map (·.1)) r.members := by
    rw [fields_plain, List.map_map]
    exact r.flatMembers.statesOnly
  have hplain : assemble r.plain.domain (.object r.members) = .ok r.plain := by
    rw [domain_plain, r.assemble_flat r.flatMembers, reassembled_of_ne_dispute hdomain]
  rw [withFact, if_pos hfact, replaced, if_neg hdate]
  rw [← r.domain_plain] at hdomain hfact ⊢
  exact assemble_insert hdomain hnames hplain hfact value

end FactRecord

/-! ## Disputes -/

namespace DisputeFacts

/-- The facts with the named one of others, and with the day count that follows. -/
def revised (f : DisputeFacts) (fact : String) (g : DisputeFacts) : DisputeFacts :=
  if fact = "transaction_date" ∨ fact = "claim_date" then (f.taking fact g).recounted
  else (f.taking fact g).counted

theorem read_eq_of_members {members members' : List (String × Json)}
    (h : ∀ key, members.lookup key = members'.lookup key) :
    read (.object members) = read (.object members') := by
  simp (disch := decide) only [read, Field.bool, Field.date, Field.int, Field.read_eq_of_members h]

/-- Without its count, a dispute in which a date was replaced is counted anew. -/
theorem counted_taking_date (f g : DisputeFacts) {fact : String}
    (hdate : fact = "transaction_date" ∨ fact = "claim_date") :
    ({ f with daysSinceTransaction := none }.taking fact g).counted =
      (f.taking fact g).recounted := by
  rcases hdate with rfl | rfl <;> simp [taking, counted, recounted, pick]

end DisputeFacts

namespace FactRecord

theorem assemble_dispute (members : List (String × Json)) :
    assemble .dispute (.object members) =
      (fun g => dispute g.counted) <$> DisputeFacts.read (.object members) := by
  simp only [assemble, Json.isObject, if_true, DisputeFacts.assemble_eq, bind_map_left]
  rw [map_eq_pure_bind]

/-- The order of the members does not count for a record. -/
theorem assemble_eq_of_members (domain : Domain) {members members' : List (String × Json)}
    (h : ∀ key, members.lookup key = members'.lookup key) :
    assemble domain (.object members) = assemble domain (.object members') := by
  cases domain with
  | authorization =>
    simp (disch := decide) only [assemble, Json.isObject, AuthorizationFacts.assemble, Field.bool,
      Field.decimal, Field.int, Field.read_eq_of_members h]
  | dispute => rw [assemble_dispute, assemble_dispute, DisputeFacts.read_eq_of_members h]
  | creditLineIncrease =>
    simp (disch := decide) only [assemble, Json.isObject, CreditLineFacts.assemble, Field.bool,
      Field.decimal, Field.int, Field.read_eq_of_members h]

theorem withFact_dispute (f : DisputeFacts) {fact : String}
    (hfact : Domain.dispute.policy.declares fact = true) (value : Json) :
    (dispute f).withFact fact value =
      (fun g => dispute (f.revised fact g)) <$> DisputeFacts.read (.object [(fact, value)]) := by
  have hnames : fact ∈ f.fields.map (·.1) := ((dispute f).declares_iff fact).mp hfact
  have hflat : FlatMembers f.fields (dispute f).members := (dispute f).flatMembers
  rw [withFact, domain, if_pos hfact, replaced]
  by_cases hdate : fact = "transaction_date" ∨ fact = "claim_date"
  · -- The count may as well be taken away before the date is put in.
    let g := { f with daysSinceTransaction := none }
    have hne : fact ≠ "days_since_transaction" := by
      rcases hdate with rfl | rfl <;> decide
    have huncounted : FlatMembers g.fields
        (Keyed.insert "days_since_transaction" .null (dispute f).members) :=
      DisputeFacts.flatMembers_uncounted hflat
    have hswap : DisputeFacts.read (.object (Keyed.insert "days_since_transaction" .null
          (Keyed.insert fact value (dispute f).members))) =
        DisputeFacts.read (.object (Keyed.insert fact value
          (Keyed.insert "days_since_transaction" .null (dispute f).members))) :=
      DisputeFacts.read_eq_of_members (Keyed.lookup_insert_comm hne.symm _ _ _)
    have hread := DisputeFacts.read_insert (f := g) huncounted.statesOnly hnames
      (g.read_flat huncounted) value
    simp only [if_pos hdate, assemble_dispute, hswap, hread, Functor.map_map,
      DisputeFacts.revised, DisputeFacts.counted_taking_date f _ hdate, g]
  · have hread := DisputeFacts.read_insert hflat.statesOnly hnames (f.read_flat hflat) value
    simp only [if_neg hdate, assemble_dispute, hread, Functor.map_map, DisputeFacts.revised]

/-! ## Errors -/

/-- The record plays no part in whether one of its facts can be replaced. -/
theorem withFact_eq_error_iff (r : FactRecord) (fact : String) (value : Json) (e : RequestError) :
    r.withFact fact value = .error e ↔
      if r.domain.policy.declares fact then assemble r.domain (.object [(fact, value)]) = .error e
      else e = .unknownField r.domain fact := by
  by_cases hfact : r.domain.policy.declares fact = true
  · rw [if_pos hfact]
    by_cases hdomain : r.domain = .dispute
    · cases r with
      | dispute f =>
        rw [withFact_dispute f hfact, domain, assemble_dispute, map_eq_error_iff, map_eq_error_iff]
      | authorization f => cases hdomain
      | creditLineIncrease f => cases hdomain
    · rw [withFact_of_ne_dispute hdomain hfact, map_eq_error_iff]
  · rw [if_neg hfact, withFact, if_neg hfact, Except.error.injEq, eq_comm]

end FactRecord

end Verdict
