import Verdict.Proofs.FactKinds
import Verdict.Proofs.SingleFact

/-!
# Errors of the boundary

An assembly fails as the first field does that cannot be read. In an object that states one fact no
field but that of the fact can fail, under whatever other names the fields may be stated. A record
is always decided, so a request fails only where its facts are not assembled, and a fact is not
replaced only where the domain has no such fact or its value is not of the kind.
-/

namespace Verdict

/-- The value can be read as one of the kind. -/
def Value.Kind.reads : Value.Kind → Json → Bool
  | bool, v => (boolOfJson? v).isSome
  | int, v => (int64OfJson? v).isSome
  | decimal, v => (Decimal.ofJson? v).isSome
  | date, v => (Date.ofJson? v).isSome

/-- A fact of the kind can be stated by the value. Null states that the fact is not known. -/
def Value.Kind.accepts (kind : Value.Kind) (v : Json) : Bool :=
  v.isNull || kind.reads v

/-! ## The first error -/

namespace Field

/-- The error of a field of the kind, if it cannot be read. -/
def error? (field : Field) (kind : Value.Kind) (request : Json) : Option RequestError :=
  (field.find? request).bind fun stated =>
    if kind.reads stated.1 then none else some (.typeMismatch field.fact kind stated.1.kind)

theorem errorOf?_read {α : Type} {kind : Value.Kind} {ofJson? : Json → Bool → Option α}
    (h : ∀ v negated, (ofJson? v negated).isSome = kind.reads v) (field : Field) (request : Json) :
    errorOf? (field.read kind ofJson? request) = field.error? kind request := by
  rw [read, error?]
  cases field.find? request with
  | none => rfl
  | some stated =>
    obtain ⟨v, negated⟩ := stated
    rw [Option.bind_some, ← h v negated]
    cases hread : ofJson? v negated <;> simp [hread, errorOf?]

theorem errorOf?_bool (field : Field) (request : Json) :
    errorOf? (field.bool request) = field.error? .bool request :=
  errorOf?_read (fun _ _ => by simp [Value.Kind.reads]) field request

theorem errorOf?_int (field : Field) (request : Json) :
    errorOf? (field.int request) = field.error? .int request :=
  errorOf?_read (fun _ _ => rfl) field request

theorem errorOf?_decimal (field : Field) (request : Json) :
    errorOf? (field.decimal request) = field.error? .decimal request :=
  errorOf?_read (fun _ _ => rfl) field request

theorem errorOf?_date (field : Field) (request : Json) :
    errorOf? (field.date request) = field.error? .date request :=
  errorOf?_read (fun _ _ => rfl) field request

end Field

/-- The fields of a domain with their kinds, in the order in which they are read. -/
def Domain.readers : Domain → List (Field × Value.Kind)
  | authorization =>
    [(.cardNotPresent, .bool), (.amount, .decimal), (.availableBalance, .decimal),
      (.creditLimit, .decimal), (.riskScore, .decimal), (.merchantCategoryCode, .int),
      (.velocity, .int)]
  | dispute =>
    [(.duplicateCharge, .bool), (.transactionDate, .date), (.claimDate, .date),
      (.daysSinceTransaction, .int)]
  | creditLineIncrease =>
    [(.amountRequested, .decimal), (.currentLimit, .decimal), (.income, .decimal),
      (.tenureMonths, .int), (.delinquent, .bool)]

/-- The error of the first field that cannot be read. -/
def Domain.firstError? (d : Domain) (request : Json) : Option RequestError :=
  d.readers.findSome? fun reader => reader.1.error? reader.2 request

namespace FactRecord

/-- An assembly fails as the first field does that cannot be read. -/
theorem errorOf?_assemble (d : Domain) {request : Json} (h : request.isObject = true) :
    errorOf? (assemble d request) = d.firstError? request := by
  have hcons : ∀ (reader : Field × Value.Kind) rest,
      (reader :: rest).findSome? (fun reader => reader.1.error? reader.2 request) =
        (reader.1.error? reader.2 request).or
          (rest.findSome? fun reader => reader.1.error? reader.2 request) := by
    intro reader rest
    rw [List.findSome?_cons]
    cases reader.1.error? reader.2 request <;> rfl
  rw [assemble.eq_def, if_pos h]
  cases d with
  | authorization =>
    simp only [Domain.firstError?, Domain.readers, hcons, ← Field.errorOf?_bool,
      ← Field.errorOf?_decimal, ← Field.errorOf?_int, List.findSome?_nil]
    rw [errorOf?_bind_pure]
    exact errorOf?_bind fun _ => errorOf?_bind fun _ => errorOf?_bind fun _ => errorOf?_bind fun _ =>
      errorOf?_bind fun _ => errorOf?_bind fun _ => errorOf?_bind fun _ => rfl
  | dispute =>
    simp only [Domain.firstError?, Domain.readers, hcons, ← Field.errorOf?_bool,
      ← Field.errorOf?_date, ← Field.errorOf?_int, List.findSome?_nil]
    rw [errorOf?_bind_pure]
    exact errorOf?_bind fun _ => errorOf?_bind fun _ => errorOf?_bind fun _ => errorOf?_bind fun _ =>
      rfl
  | creditLineIncrease =>
    simp only [Domain.firstError?, Domain.readers, hcons, ← Field.errorOf?_bool,
      ← Field.errorOf?_decimal, ← Field.errorOf?_int, List.findSome?_nil]
    rw [errorOf?_bind_pure]
    exact errorOf?_bind fun _ => errorOf?_bind fun _ => errorOf?_bind fun _ => errorOf?_bind fun _ =>
      errorOf?_bind fun _ => rfl

end FactRecord

/-! ## A single fact -/

theorem Domain.isFlatIn_of_mem_readers {d : Domain} {reader : Field × Value.Kind}
    (h : reader ∈ d.readers) : reader.1.IsFlatIn (d.kinds.map (·.1)) := by
  cases d with
  | authorization =>
    simp only [readers, List.mem_cons, List.not_mem_nil, or_false] at h
    rcases h with rfl | rfl | rfl | rfl | rfl | rfl | rfl <;> exact ⟨_, rfl, by simp [kinds]⟩
  | dispute =>
    simp only [readers, List.mem_cons, List.not_mem_nil, or_false] at h
    rcases h with rfl | rfl | rfl | rfl <;> exact ⟨_, rfl, by simp [kinds]⟩
  | creditLineIncrease =>
    simp only [readers, List.mem_cons, List.not_mem_nil, or_false] at h
    rcases h with rfl | rfl | rfl | rfl | rfl <;> exact ⟨_, rfl, by simp [kinds]⟩

/-- Each field is read as its fact has its kind. -/
theorem Domain.kindOf?_of_mem_readers (d : Domain) :
    ∀ reader ∈ d.readers, d.kindOf? reader.1.fact = some reader.2 := by
  cases d <;> decide

/-- No fact is left out when the fields are read. -/
theorem Domain.exists_reader {d : Domain} {fact : String} {kind : Value.Kind}
    (h : d.kindOf? fact = some kind) : ∃ field, field.fact = fact ∧ (field, kind) ∈ d.readers := by
  have hsub : ∀ name ∈ d.kinds.map (·.1), name ∈ d.readers.map (·.1.fact) := by
    cases d <;> decide
  obtain ⟨⟨field, kind'⟩, hreader, hfact⟩ := List.mem_map.mp (hsub fact (Keyed.mem_of_lookup_eq_some h))
  have hkind := d.kindOf?_of_mem_readers _ hreader
  rw [hfact, h] at hkind
  cases hkind
  exact ⟨field, hfact, hreader⟩

/-- In an object that states one fact, no field but that of the fact can fail. -/
theorem Field.error?_singleton {field : Field} {names : List String} (hfield : field.IsFlatIn names)
    {fact : String} (hfact : fact ∈ names) (kind : Value.Kind) (value : Json) :
    field.error? kind (.object [(fact, value)]) =
      if field.fact = fact ∧ kind.accepts value = false then
        some (.typeMismatch fact kind value.kind)
      else none := by
  have hnames := statesOnly_singleton hfact value
  by_cases hown : field.fact = fact
  · subst hown
    rw [error?, find?_stated hfield hfact hnames List.lookup_cons_self, Value.Kind.accepts]
    cases value.isNull <;> cases hreads : kind.reads value <;> simp [hreads]
  · have hlookup : [(fact, value)].lookup field.fact = none := by
      rw [Keyed.lookup_cons_eq, if_neg hown, List.lookup_nil]
    rw [error?, find?_unstated hfield hnames hlookup, Option.bind_none, if_neg fun h => hown h.1]

namespace FactRecord

/-- One fact alone is not assembled exactly if its value is not of its kind. -/
theorem assemble_singleton_eq_error_iff {d : Domain} {fact : String}
    (hfact : d.policy.declares fact = true) (value : Json) (e : RequestError) :
    assemble d (.object [(fact, value)]) = .error e ↔
      ∃ kind, d.kindOf? fact = some kind ∧ kind.accepts value = false ∧
        e = .typeMismatch fact kind value.kind := by
  have hmem : fact ∈ d.kinds.map (·.1) := by
    rw [d.declares_policy, Option.isSome_iff_exists] at hfact
    obtain ⟨kind, hkind⟩ := hfact
    exact Keyed.mem_of_lookup_eq_some hkind
  have herror : ∀ reader ∈ d.readers, reader.1.error? reader.2 (.object [(fact, value)]) =
      if reader.1.fact = fact ∧ reader.2.accepts value = false then
        some (.typeMismatch fact reader.2 value.kind)
      else none :=
    fun reader hreader => Field.error?_singleton (Domain.isFlatIn_of_mem_readers hreader) hmem _ _
  have hshape : ∀ e, d.firstError? (.object [(fact, value)]) = some e →
      ∃ kind, d.kindOf? fact = some kind ∧ kind.accepts value = false ∧
        e = .typeMismatch fact kind value.kind := by
    intro e h
    obtain ⟨reader, hreader, h⟩ := List.exists_of_findSome?_eq_some h
    rw [herror reader hreader] at h
    split at h
    · rename_i hfails
      cases h
      exact ⟨reader.2, hfails.1 ▸ d.kindOf?_of_mem_readers reader hreader, hfails.2, rfl⟩
    · cases h
  rw [← errorOf?_eq_some_iff, errorOf?_assemble d rfl]
  refine ⟨hshape e, ?_⟩
  rintro ⟨kind, hkind, hrejects, rfl⟩
  obtain ⟨field, hfield, hreader⟩ := d.exists_reader hkind
  cases hfirst : d.firstError? (.object [(fact, value)]) with
  | none =>
    have hnone := List.findSome?_eq_none_iff.mp hfirst _ hreader
    rw [herror _ hreader, if_pos ⟨hfield, hrejects⟩] at hnone
    cases hnone
  | some e =>
    obtain ⟨kind', hkind', -, rfl⟩ := hshape e hfirst
    rw [hkind, Option.some.injEq] at hkind'
    rw [hkind']

/-- A fact is not replaced if the domain does not have it, or if its value is not of its kind. -/
theorem withFact_eq_error_iff_rejects (r : FactRecord) (fact : String) (value : Json)
    (e : RequestError) :
    r.withFact fact value = .error e ↔
      (r.domain.policy.declares fact = false ∧ e = .unknownField r.domain fact) ∨
        ∃ kind, r.domain.kindOf? fact = some kind ∧ kind.accepts value = false ∧
          e = .typeMismatch fact kind value.kind := by
  rw [withFact_eq_error_iff]
  by_cases hfact : r.domain.policy.declares fact = true
  · rw [if_pos hfact, assemble_singleton_eq_error_iff hfact]
    simp [hfact]
  · have hkind : r.domain.kindOf? fact = none := by
      rwa [Domain.declares_policy, Bool.not_eq_true, Option.isSome_eq_false_iff,
        Option.isNone_iff_eq_none] at hfact
    rw [if_neg hfact]
    simp [hfact, hkind]

/-- As records are always decided, a probe fails only where the fact is not replaced. -/
theorem unchangedBy_eq_error_iff (r : FactRecord) (field : String) (value : Json) (mode : Mode)
    (e : RequestError) :
    r.unchangedBy field value mode = .error e ↔ r.withFact field value = .error e := by
  cases hcopy : r.withFact field value with
  | ok copy =>
    rw [unchangedBy_eq hcopy]
    simp
  | error e' =>
    rw [unchangedBy, hcopy]
    simp [bind, Except.bind]

end FactRecord

/-- A request fails exactly if its domain is known and its facts are not assembled, and with the same
error. A probe fails exactly if the domain does not have the fact, or if the value, which is not
null, cannot be read as one of the kind of the fact. No other fact is reported, and a proof program
never is. -/
theorem request_and_probe_eq_error_iff :
    (∀ (name : String) (facts : Json) (mode : Mode) (e : RequestError),
      decideRequest name facts mode = .error e ↔
        ∃ d, Domain.ofName? name = some d ∧ FactRecord.assemble d facts = .error e) ∧
      ∀ (r : FactRecord) (field : String) (value : Json) (mode : Mode) (e : RequestError),
        r.unchangedBy field value mode = .error e ↔
          (r.domain.policy.declares field = false ∧ e = .unknownField r.domain field) ∨
            ∃ kind, r.domain.kindOf? field = some kind ∧ kind.accepts value = false ∧
              e = .typeMismatch field kind value.kind := by
  refine ⟨fun name facts mode e => ?_, fun r field value mode e => ?_⟩
  · rw [decideRequest]
    cases Domain.ofName? name with
    | none => simp
    | some d =>
      cases hr : FactRecord.assemble d facts with
      | error e' => simp [hr, bind, Except.bind]
      | ok r =>
        obtain ⟨report, hreport, -⟩ := r.exists_decide mode
        simp [hr, hreport, bind, Except.bind]
  · rw [r.unchangedBy_eq_error_iff, r.withFact_eq_error_iff_rejects]

/-- A short name, under which the channel can be stated in a request, is the name of no fact. -/
example (f : AuthorizationFacts) (mode : Mode) :
    (FactRecord.authorization f).unchangedBy "cnp" (.bool true) mode =
      .error (.unknownField .authorization "cnp") := rfl

end Verdict
