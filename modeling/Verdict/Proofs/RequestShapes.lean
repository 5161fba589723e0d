import Verdict.Proofs.UnreadMembers

/-!
# The shapes of a request

A request for a payment can state each fact under its own name, under a short name or inside a
nested object, and the channel also by its opposite. Whichever spellings are chosen, the request is
assembled to the same record, but for the signs of zeros. Only a risk that is stated as a plain
number leaves no room for the other fact that can be nested there.
-/

namespace Verdict

/-- A value as it is stated, or its opposite where that is asked for. -/
def Value.spelled (negated : Bool) : Value → Json
  | bool b => .bool (b != negated)
  | v => v.toJson

theorem Value.isNull_spelled (negated : Bool) (v : Value) : (v.spelled negated).isNull = false := by
  cases v <;> rfl

theorem Value.isObject_spelled (negated : Bool) (v : Value) :
    (v.spelled negated).isObject = false := by
  cases v <;> rfl

namespace AuthorizationFacts

/-- One accepted spelling for each fact of a payment. -/
structure Wording where
  spelling : String → Spelling
  accepted : ∀ reader ∈ Domain.authorization.readers,
    spelling reader.1.fact ∈ reader.1.spellings

namespace Wording

variable (w : Wording) (f : AuthorizationFacts)

/-- The values of the known facts at the paths of their spellings. -/
def entries : List (List String × Json) :=
  f.fields.filterMap fun field => field.2.map fun v =>
    ((w.spelling field.1).path, v.spelled (w.spelling field.1).negated)

/-- The request that states the known facts and nothing else. -/
def request : Json :=
  .ofPaths (w.entries f)

/-- The risk is stated as a plain number, and the velocity inside an object in its place. -/
def Clashes : Prop :=
  f.riskScore.isSome ∧ f.velocity.isSome ∧ (w.spelling "risk_score").path = ["risk"] ∧
    (w.spelling "velocity_1h").path = ["risk", "velocity_1h"]

variable {w f}

/-- A spelling leads to another one only if it is that of a risk in the place of a nested object. -/
theorem leads_cases :
    ∀ reader ∈ Domain.authorization.readers, ∀ reader' ∈ Domain.authorization.readers,
      ∀ s ∈ reader.1.spellings, ∀ t ∈ reader'.1.spellings, s.path <+: t.path →
        (reader.1.fact = reader'.1.fact ∧ s = t) ∨
          (reader.1.fact = "risk_score" ∧ s.path = ["risk"] ∧ t.path ≠ ["risk"] ∧
            Field.goesDeeper reader.1.spellings s.path = true ∧
              (reader'.1.fact = "risk_score" ∨
                reader'.1.fact = "velocity_1h" ∧ t.path = ["risk", "velocity_1h"])) := by
  decide

theorem exists_reader_of_mem {field : String × Option Value} {v : Value} (hfield : field ∈ f.fields)
    (hv : field.2 = some v) :
    ∃ reader ∈ Domain.authorization.readers, reader.1.fact = field.1 ∧
      f.fields.lookup field.1 = some (some v) := by
  have hlookup : f.fields.lookup field.1 = some (some v) :=
    hv ▸ Keyed.lookup_of_mem (FactRecord.authorization f).nodup_fields hfield
  have hkind := FactRecord.kindOf?_of_get?
    (FactRecord.get?_known_of_lookup (r := .authorization f) hlookup)
  obtain ⟨reader, hfact, hreader⟩ := Domain.exists_reader hkind
  exact ⟨_, hreader, hfact, hlookup⟩

/-- The entries are those of the known facts. -/
theorem mem_entries_iff {entry : List String × Json} :
    entry ∈ w.entries f ↔ ∃ reader ∈ Domain.authorization.readers, ∃ v,
      f.fields.lookup reader.1.fact = some (some v) ∧
        ((w.spelling reader.1.fact).path, v.spelled (w.spelling reader.1.fact).negated) =
          entry := by
  rw [entries, List.mem_filterMap]
  constructor
  · rintro ⟨field, hfield, hentry⟩
    obtain ⟨v, hv, hentry⟩ := Option.map_eq_some_iff.mp hentry
    obtain ⟨reader, hreader, hfact, hlookup⟩ := exists_reader_of_mem hfield hv
    rw [← hfact] at hentry hlookup
    exact ⟨reader, hreader, v, hlookup, hentry⟩
  · rintro ⟨reader, -, v, hlookup, rfl⟩
    obtain ⟨before, after, hsplit, -⟩ := List.lookup_eq_some_iff.mp hlookup
    have hfield : (reader.1.fact, some v) ∈ f.fields := hsplit ▸ List.mem_append_cons_self
    exact ⟨_, hfield, rfl⟩

/-- No known fact is stated inside the value of another one. -/
theorem not_leads (h : ¬w.Clashes f) {reader reader' : Field × Value.Kind}
    (hreader : reader ∈ Domain.authorization.readers)
    (hreader' : reader' ∈ Domain.authorization.readers) (hne : reader.1.fact ≠ reader'.1.fact)
    {v v' : Value} (hv : f.fields.lookup reader.1.fact = some (some v))
    (hv' : f.fields.lookup reader'.1.fact = some (some v')) :
    ¬(w.spelling reader.1.fact).path <+: (w.spelling reader'.1.fact).path := by
  intro hleads
  rcases leads_cases reader hreader reader' hreader' _ (w.accepted reader hreader) _
    (w.accepted reader' hreader') hleads with ⟨hfact, -⟩ | ⟨hrisk, hpath, -, -, hsame | hvelocity⟩
  · exact hne hfact
  · exact hne (hrisk.trans hsame.symm)
  · rw [hrisk] at hv hpath
    rw [hvelocity.1] at hv' hvelocity
    have hriskScore : f.riskScore.map Value.decimal = some v := Option.some.inj hv
    have hvelocity1h : f.velocity.map Value.int = some v' := Option.some.inj hv'
    refine h ⟨?_, ?_, hpath, hvelocity.2⟩
    · rw [← Option.isSome_map (f := Value.decimal), hriskScore, Option.isSome_some]
    · rw [← Option.isSome_map (f := Value.int), hvelocity1h, Option.isSome_some]

theorem parts_entries (h : ¬w.Clashes f) :
    (w.entries f).Pairwise fun entry entry' => Json.Parts entry.1 entry'.1 := by
  have hnames : f.fields.Pairwise fun field field' => field.1 ≠ field'.1 :=
    List.pairwise_map.mp (FactRecord.authorization f).nodup_fields
  rw [entries, List.pairwise_filterMap]
  refine hnames.imp_of_mem fun {field field'} hfield hfield' hne entry hentry entry' hentry' => ?_
  obtain ⟨v, hv, rfl⟩ := Option.map_eq_some_iff.mp hentry
  obtain ⟨v', hv', rfl⟩ := Option.map_eq_some_iff.mp hentry'
  obtain ⟨reader, hreader, hfact, hlookup⟩ := exists_reader_of_mem hfield hv
  obtain ⟨reader', hreader', hfact', hlookup'⟩ := exists_reader_of_mem hfield' hv'
  rw [← hfact, ← hfact'] at hne
  rw [← hfact] at hlookup ⊢
  rw [← hfact'] at hlookup' ⊢
  exact ⟨not_leads h hreader hreader' hne hlookup hlookup',
    not_leads h hreader' hreader hne.symm hlookup' hlookup⟩

/-! ## Finding a fact -/

theorem findSome?_of_unique {α β : Type} [DecidableEq α] {g : α → Option β} {l : List α} {a : α}
    (ha : a ∈ l) {r : Option β} (h : ∀ b ∈ l, g b = if b = a then r else none) :
    l.findSome? g = r := by
  cases r with
  | none =>
    rw [List.findSome?_eq_none_iff]
    intro b hb
    rw [h b hb]
    split <;> rfl
  | some x =>
    cases hfound : l.findSome? g with
    | none =>
      have hnone := List.findSome?_eq_none_iff.mp hfound a ha
      rw [h a ha, if_pos rfl] at hnone
      cases hnone
    | some y =>
      obtain ⟨b, hb, hy⟩ := List.exists_of_findSome?_eq_some hfound
      rw [h b hb] at hy
      split at hy
      · exact hy.symm
      · cases hy

theorem holds_request (h : ¬w.Clashes f) : Json.Holds (w.entries f) (w.request f) :=
  Json.holds_ofPaths (parts_entries h)

theorem stated?_chosen (h : ¬w.Clashes f) {reader : Field × Value.Kind}
    (hreader : reader ∈ Domain.authorization.readers) {v : Value}
    (hv : f.fields.lookup reader.1.fact = some (some v)) :
    Field.stated? reader.1.spellings (w.request f) (w.spelling reader.1.fact) =
      some (v.spelled (w.spelling reader.1.fact).negated, (w.spelling reader.1.fact).negated) := by
  have hentry : _ ∈ w.entries f := mem_entries_iff.mpr ⟨reader, hreader, v, hv, rfl⟩
  have hat : (w.request f).at? (w.spelling reader.1.fact).path =
      some (v.spelled (w.spelling reader.1.fact).negated) := by
    have hstated := (holds_request h).stated _ hentry []
    rwa [List.append_nil] at hstated
  simp [Field.stated?, hat, v.isNull_spelled, v.isObject_spelled]

/-- At a spelling that was not chosen there is nothing, or else a container. -/
theorem stated?_other (h : ¬w.Clashes f) {reader : Field × Value.Kind}
    (hreader : reader ∈ Domain.authorization.readers) {s : Spelling} (hs : s ∈ reader.1.spellings)
    (hother : s = w.spelling reader.1.fact → f.fields.lookup reader.1.fact = some none) :
    Field.stated? reader.1.spellings (w.request f) s = none := by
  have hpath : s.path ≠ [] := Domain.path_ne_nil .authorization reader hreader s hs
  cases hat : (w.request f).at? s.path with
  | none => rw [Field.stated?, hat]
  | some found =>
    have hunstated : ∀ entry ∈ w.entries f, ¬entry.1 <+: s.path := by
      intro entry hentry hleads
      obtain ⟨reader', hreader', v, hv, rfl⟩ := mem_entries_iff.mp hentry
      rcases leads_cases reader' hreader' reader hreader _ (w.accepted reader' hreader') s hs hleads
        with ⟨hfact, hspelling⟩ | ⟨-, hrisk, hne, -⟩
      · rw [hfact] at hv hspelling
        rw [hother hspelling.symm] at hv
        cases hv
      -- The path goes on from a risk that is a plain number.
      · obtain ⟨rest, hrest⟩ := hleads
        have hrest' : rest ≠ [] := by
          rintro rfl
          exact hne (by rw [← hrest, List.append_nil, hrisk])
        have hinside := (holds_request h).stated _ hentry rest
        rw [hrest, hat, Json.at?_eq_none (v.isObject_spelled _) hrest'] at hinside
        cases hinside
    rcases (holds_request h).onTheWay s.path found hpath hat with
      ⟨entry, hentry, hleads⟩ | ⟨⟨inner, rfl⟩, entry, hentry, hleads⟩
    · exact absurd hleads (hunstated entry hentry)
    · have hentry' := hentry
      obtain ⟨reader', hreader', v, -, rfl⟩ := mem_entries_iff.mp hentry
      rcases leads_cases reader hreader reader' hreader' s hs _ (w.accepted reader' hreader') hleads
        with ⟨-, hspelling⟩ | ⟨-, -, -, hdeeper, -⟩
      · exact absurd (hspelling ▸ List.prefix_rfl) (hunstated _ hentry')
      · exact Field.stated?_eq_none_of_container hdeeper hat

theorem find?_request (h : ¬w.Clashes f) {reader : Field × Value.Kind}
    (hreader : reader ∈ Domain.authorization.readers) {value : Option Value}
    (hvalue : f.fields.lookup reader.1.fact = some value) :
    reader.1.find? (w.request f) =
      value.map fun v => (v.spelled (w.spelling reader.1.fact).negated,
        (w.spelling reader.1.fact).negated) := by
  refine findSome?_of_unique (w.accepted reader hreader) fun s hs => ?_
  cases value with
  | none => rw [stated?_other h hreader hs fun _ => hvalue, Option.map_none, ite_self]
  | some v =>
    by_cases hchosen : s = w.spelling reader.1.fact
    · rw [if_pos hchosen, hchosen, stated?_chosen h hreader hvalue, Option.map_some]
    · rw [if_neg hchosen, stated?_other h hreader hs fun h => absurd h hchosen]

/-! ## Assembling -/

/-- A stated fact is read as its value, up to what reading does to a written value. -/
theorem read_request {α : Type} (kind : Value.Kind) (ofJson? : Json → Bool → Option α)
    {encode : α → Value} {normal : α → α}
    (hread : ∀ a negated, ofJson? ((encode a).spelled negated) negated = some (normal a))
    (h : ¬w.Clashes f) {reader : Field × Value.Kind}
    (hreader : reader ∈ Domain.authorization.readers) {value : Option α}
    (hvalue : f.fields.lookup reader.1.fact = some (value.map encode)) :
    reader.1.read kind ofJson? (w.request f) = .ok (value.map normal) := by
  rw [Field.read, find?_request h hreader hvalue]
  cases value with
  | none => rfl
  | some a => simp [hread]

theorem decimal_request (h : ¬w.Clashes f) {reader : Field × Value.Kind}
    (hreader : reader ∈ Domain.authorization.readers) {value : Option Decimal}
    (hvalue : f.fields.lookup reader.1.fact = some (value.map .decimal)) :
    reader.1.decimal (w.request f) = .ok (value.map Decimal.plain) := by
  have hread : ∀ d : Decimal, ∀ negated, Decimal.ofJson? ((Value.decimal d).spelled negated) =
      some d.plain := fun d _ => d.ofJson?_toJson
  exact read_request .decimal (fun v _ => Decimal.ofJson? v) hread h hreader hvalue

theorem int_request (h : ¬w.Clashes f) {reader : Field × Value.Kind}
    (hreader : reader ∈ Domain.authorization.readers) {value : Option Int64}
    (hvalue : f.fields.lookup reader.1.fact = some (value.map .int)) :
    reader.1.int (w.request f) = .ok value := by
  have hread : ∀ n : Int64, ∀ negated, int64OfJson? ((Value.int n).spelled negated) =
      some (id n) := fun n _ => int64OfJson?_toJson n
  have hint := read_request .int (fun v _ => int64OfJson? v) hread h hreader hvalue
  rwa [Option.map_id] at hint

theorem bool_request (h : ¬w.Clashes f) {reader : Field × Value.Kind}
    (hreader : reader ∈ Domain.authorization.readers) {value : Option Bool}
    (hvalue : f.fields.lookup reader.1.fact = some (value.map .bool)) :
    reader.1.bool (w.request f) = .ok value := by
  have hread : ∀ b negated : Bool, (boolOfJson? ((Value.bool b).spelled negated)).map
      (· != negated) = some (id b) := by
    intro b negated
    cases b <;> cases negated <;> rfl
  have hbool := read_request .bool (fun v negated => (boolOfJson? v).map (· != negated)) hread h
    hreader hvalue
  rwa [Option.map_id] at hbool

theorem assemble_request (h : ¬w.Clashes f) : assemble (w.request f) = .ok f.plain := by
  have hreaders : ∀ reader ∈ Domain.authorization.readers, reader ∈ Domain.authorization.readers :=
    fun _ hreader => hreader
  simp only [Domain.readers, List.forall_mem_cons] at hreaders
  obtain ⟨hchannel, hamount, hbalance, hlimit, hrisk, hcode, hvelocity, -⟩ := hreaders
  have hchannel : Field.cardNotPresent.bool (w.request f) = .ok f.cardNotPresent :=
    bool_request h hchannel rfl
  have hamount : Field.amount.decimal (w.request f) = .ok (f.amount.map Decimal.plain) :=
    decimal_request h hamount rfl
  have hbalance : Field.availableBalance.decimal (w.request f) =
      .ok (f.availableBalance.map Decimal.plain) :=
    decimal_request h hbalance rfl
  have hlimit : Field.creditLimit.decimal (w.request f) = .ok (f.creditLimit.map Decimal.plain) :=
    decimal_request h hlimit rfl
  have hrisk : Field.riskScore.decimal (w.request f) = .ok (f.riskScore.map Decimal.plain) :=
    decimal_request h hrisk rfl
  have hcode : Field.merchantCategoryCode.int (w.request f) = .ok f.merchantCategoryCode :=
    int_request h hcode rfl
  have hvelocity : Field.velocity.int (w.request f) = .ok f.velocity :=
    int_request h hvelocity rfl
  rw [assemble, hchannel, hamount, hbalance, hlimit, hrisk, hcode, hvelocity]
  rfl

theorem isObject_request (w : Wording) (f : AuthorizationFacts) :
    (w.request f).isObject = true := by
  refine Json.isObject_ofPaths fun entry hentry => ?_
  obtain ⟨reader, hreader, v, -, rfl⟩ := mem_entries_iff.mp hentry
  exact Domain.path_ne_nil .authorization reader hreader _ (w.accepted reader hreader)

theorem assemble_request_record (h : ¬w.Clashes f) :
    FactRecord.assemble .authorization (w.request f) = .ok (.authorization f.plain) := by
  simp only [FactRecord.assemble, w.isObject_request f, if_true, assemble_request h]
  rfl

end Wording

end AuthorizationFacts

open AuthorizationFacts in
/-- The known facts of a payment, each under one of its accepted spellings, are assembled to the
payment itself, except that a zero loses its sign. The judgement does not depend on such signs. -/
theorem assemble_worded {f : AuthorizationFacts} {w : Wording} (h : ¬w.Clashes f) :
    FactRecord.assemble .authorization (w.request f) = .ok (.authorization f.plain) ∧
      (FactRecord.assemble .authorization (w.request f) = .ok (.authorization f) ↔
        (FactRecord.authorization f).hasNegativeZero = false) ∧
      ∀ mode, (FactRecord.authorization f.plain).judge mode =
        (FactRecord.authorization f).judge mode := by
  have hassemble := Wording.assemble_request_record h
  refine ⟨hassemble, ?_, (FactRecord.authorization f).judge_plain⟩
  rw [hassemble, Except.ok.injEq]
  exact (FactRecord.authorization f).plain_eq_self_iff

/-- A wording that nests what can be nested, and states the channel by its opposite. -/
def nestedWording : AuthorizationFacts.Wording where
  spelling fact :=
    ([("available_balance", ⟨["account", "available"], false⟩), ("credit_limit", ⟨["limit"], false⟩),
      ("risk_score", ⟨["risk", "score"], false⟩),
      ("card_not_present", ⟨["context", "is_card_present"], true⟩),
      ("velocity_1h", ⟨["risk", "velocity_1h"], false⟩)].lookup fact).getD ⟨[fact], false⟩
  accepted := by decide

/-- A payment without the card, for which no limit and no category is known. -/
def remotePayment : AuthorizationFacts where
  amount := Decimal.ofParts? false 9550 2
  availableBalance := Decimal.ofParts? false 900 0
  creditLimit := none
  riskScore := Decimal.ofParts? false 2 1
  merchantCategoryCode := none
  cardNotPresent := some true
  velocity := some 3

theorem assemble_worded_remotePayment :
    ¬nestedWording.Clashes remotePayment ∧
      FactRecord.assemble .authorization
          (.object [("account", .object [("available", .string "900")]), ("amount", .string "95.50"),
            ("context", .object [("is_card_present", .bool false)]),
            ("risk", .object [("score", .string "0.2"), ("velocity_1h", .integer 3)])]) =
        .ok (.authorization remotePayment) := by
  have hfits : ¬nestedWording.Clashes remotePayment := by
    rintro ⟨-, -, hrisk, -⟩
    revert hrisk
    decide
  exact ⟨hfits, (assemble_worded hfits).2.1.mpr rfl⟩

/-- A zero keeps its sign in the request that states the facts of its payment, but it is read
without the sign. -/
theorem sign_lost_in_worded_request :
    FactRecord.assemble .authorization signedZeroRequest = .ok signedZeroPayment ∧
      ∃ f, signedZeroPayment = .authorization f ∧ ¬nestedWording.Clashes f ∧
        FactRecord.assemble .authorization (nestedWording.request f) ≠ .ok signedZeroPayment := by
  have hfits : ∀ f, ¬nestedWording.Clashes f := by
    rintro f ⟨-, -, hrisk, -⟩
    revert hrisk
    decide
  refine ⟨rfl, _, rfl, hfits _, ?_⟩
  rw [AuthorizationFacts.Wording.assemble_request_record (hfits _)]
  decide

end Verdict
