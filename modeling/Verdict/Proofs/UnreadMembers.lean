import Mathlib.Logic.Relation
import Verdict.Proofs.BoundaryErrors
import Verdict.Proofs.NestedObjects

/-!
# Members that no field reads

A field reads a request at the paths of its spellings and nowhere else. Null stands for nothing
there, and of a container it only counts that it is one. So nulls can be put in and taken out, and
so can members under keys with which no spelling starts. A fact that is stated under its own name
hides whatever its other spellings state.
-/

namespace Verdict

/-- Takes away the entries with a key. -/
def Keyed.erase {α : Type} (key : String) (entries : List (String × α)) : List (String × α) :=
  entries.filter fun entry => entry.1 ≠ key

theorem Keyed.lookup_erase {α : Type} (key other : String) (entries : List (String × α)) :
    (erase key entries).lookup other = if other = key then none else entries.lookup other := by
  induction entries with
  | nil => simp [erase]
  | cons entry rest ih =>
    rw [erase] at ih ⊢
    by_cases hentry : entry.1 = key
    · rw [List.filter_cons_of_neg (by simpa using hentry), ih, lookup_cons_eq, hentry]
      split <;> rfl
    · rw [List.filter_cons_of_pos (by simpa using hentry), lookup_cons_eq, lookup_cons_eq, ih]
      by_cases hother : other = entry.1
      · rw [if_pos hother, if_pos hother, if_neg (hother ▸ hentry)]
      · rw [if_neg hother, if_neg hother]

namespace Json

/-- The value at a path, where null counts as none. -/
def nonNull? (v : Json) (path : List String) : Option Json :=
  (v.at? path).filter fun found => !found.isNull

theorem nonNull?_null (path : List String) : null.nonNull? path = none := by
  cases path <;> rfl

end Json

/-! ## What the fields find -/

namespace Field

/-- The requests have the same at the path, or each has a container for the field. -/
def AlikeAt (field : Field) (request request' : Json) (path : List String) : Prop :=
  request'.nonNull? path = request.nonNull? path ∨
    goesDeeper field.spellings path = true ∧ ∃ inner inner',
      request.at? path = some (.object inner) ∧ request'.at? path = some (.object inner')

variable {field : Field} {request request' : Json}

theorem stated?_eq_of_nonNull? {s : Spelling}
    (h : request'.nonNull? s.path = request.nonNull? s.path) :
    stated? field.spellings request' s = stated? field.spellings request s := by
  have hstated : ∀ v : Json, stated? field.spellings v s =
      (v.nonNull? s.path).bind fun found =>
        if found.isObject && goesDeeper field.spellings s.path then none
        else some (found, s.negated) := by
    intro v
    rw [stated?, Json.nonNull?]
    cases v.at? s.path with
    | none => rfl
    | some found => cases hnull : found.isNull <;> simp [hnull, Option.filter_some]
  rw [hstated, hstated, h]

theorem stated?_eq_none_of_container {s : Spelling} {inner : List (String × Json)}
    (hdeeper : goesDeeper field.spellings s.path = true)
    (hinner : request.at? s.path = some (.object inner)) :
    stated? field.spellings request s = none := by
  simp [stated?, hinner, Json.isObject, hdeeper]

theorem find?_eq_of_alikeAt (h : ∀ s ∈ field.spellings, field.AlikeAt request request' s.path) :
    field.find? request' = field.find? request := by
  have hstated : ∀ s ∈ field.spellings,
      stated? field.spellings request' s = stated? field.spellings request s := by
    intro s hs
    rcases h s hs with hsame | ⟨hdeeper, inner, inner', hinner, hinner'⟩
    · exact stated?_eq_of_nonNull? hsame
    · rw [stated?_eq_none_of_container hdeeper hinner,
        stated?_eq_none_of_container hdeeper hinner']
  rw [find?, find?, ← List.head?_filterMap, ← List.head?_filterMap, List.filterMap_congr hstated]

/-- A value under the name of the fact counts before all others. -/
theorem find?_own {names : List String} (hfield : field.IsFlatIn names) (hfact : field.fact ∈ names)
    {members : List (String × Json)} {value : Json}
    (hlookup : members.lookup field.fact = some value) (hvalue : value.isNull = false) :
    field.find? (.object members) = some (value, false) := by
  have hdeeper := goesDeeper_own hfield hfact
  obtain ⟨others, hspellings, -⟩ := hfield
  have hown : Json.at? [field.fact] (.object members) = some value := by
    rw [Json.at?_object_cons, hlookup]
    rfl
  have hstated : stated? field.spellings (.object members) ⟨[field.fact], false⟩ =
      some (value, false) := by
    simp [stated?, hown, hvalue, hdeeper]
  rw [find?]
  nth_rewrite 2 [hspellings]
  rw [List.findSome?_cons, hstated]

end Field

/-- What the fields find in a request is all that counts for the record. -/
theorem FactRecord.assemble_eq_of_find? {d : Domain} {members members' : List (String × Json)}
    (h : ∀ reader ∈ d.readers,
      reader.1.find? (.object members') = reader.1.find? (.object members)) :
    assemble d (.object members') = assemble d (.object members) := by
  have hread : ∀ reader ∈ d.readers, ∀ {α : Type} (kind : Value.Kind)
      (ofJson? : Json → Bool → Option α), reader.1.read kind ofJson? (.object members') =
        reader.1.read kind ofJson? (.object members) := by
    intro reader hreader α kind ofJson?
    rw [Field.read, Field.read, h reader hreader]
  cases d with
  | authorization =>
    simp only [Domain.readers, List.forall_mem_cons] at hread
    obtain ⟨hchannel, hamount, hbalance, hlimit, hrisk, hcode, hvelocity, -⟩ := hread
    simp only [assemble, Json.isObject, AuthorizationFacts.assemble, Field.bool, Field.decimal,
      Field.int, hchannel, hamount, hbalance, hlimit, hrisk, hcode, hvelocity]
  | dispute =>
    simp only [Domain.readers, List.forall_mem_cons] at hread
    obtain ⟨hduplicate, hstart, hfinish, hdays, -⟩ := hread
    simp only [assemble, Json.isObject, DisputeFacts.assemble, Field.bool, Field.date, Field.int,
      hduplicate, hstart, hfinish, hdays]
  | creditLineIncrease =>
    simp only [Domain.readers, List.forall_mem_cons] at hread
    obtain ⟨hrequested, hlimit, hincome, htenure, hdelinquent, -⟩ := hread
    simp only [assemble, Json.isObject, CreditLineFacts.assemble, Field.bool, Field.decimal,
      Field.int, hrequested, hlimit, hincome, htenure, hdelinquent]

/-! ## Edits -/

/-- The members that hold nested objects. -/
def Domain.containers : List String :=
  ["account", "risk", "context"]

/-- The keys with which the spellings of the domain start. -/
def Domain.firstKeys (d : Domain) : List String :=
  d.readers.flatMap fun reader => reader.1.spellings.filterMap (·.path.head?)

/-- A null is put in under a key without value, or taken out. -/
inductive NullEdit : List (String × Json) → List (String × Json) → Prop
  | add {members : List (String × Json)} (key : String) (h : members.lookup key = none) :
    NullEdit members (Keyed.insert key .null members)
  | remove {members : List (String × Json)} (key : String) (h : members.lookup key = some .null) :
    NullEdit members (Keyed.erase key members)

/-- An edit of a request that no field of the domain can see. -/
inductive UnseenEdit (d : Domain) : List (String × Json) → List (String × Json) → Prop
  | null {members members' : List (String × Json)} (h : NullEdit members members') :
    UnseenEdit d members members'
  | within {members inner inner' : List (String × Json)} (container : String)
    (hcontainer : container ∈ Domain.containers)
    (hlookup : members.lookup container = some (.object inner)) (h : NullEdit inner inner') :
    UnseenEdit d members (Keyed.insert container (.object inner') members)
  | put {members : List (String × Json)} (key : String) (hkey : key ∉ d.firstKeys) (value : Json) :
    UnseenEdit d members (Keyed.insert key value members)
  | remove {members : List (String × Json)} (key : String) (hkey : key ∉ d.firstKeys) :
    UnseenEdit d members (Keyed.erase key members)

theorem NullEdit.nonNull?_lookup {members members' : List (String × Json)}
    (h : NullEdit members members') (key : String) :
    members'.lookup key = members.lookup key ∨
      (members.lookup key = none ∧ members'.lookup key = some .null) ∨
        members.lookup key = some .null ∧ members'.lookup key = none := by
  cases h with
  | add key' h =>
    rw [Keyed.lookup_insert]
    by_cases hkey : key = key'
    · exact Or.inr (Or.inl ⟨hkey ▸ h, if_pos hkey⟩)
    · exact Or.inl (if_neg hkey)
  | remove key' h =>
    rw [Keyed.lookup_erase]
    by_cases hkey : key = key'
    · exact Or.inr (Or.inr ⟨hkey ▸ h, if_pos hkey⟩)
    · exact Or.inl (if_neg hkey)

theorem NullEdit.nonNull? {members members' : List (String × Json)} (h : NullEdit members members')
    {path : List String} (hpath : path ≠ []) :
    (Json.object members').nonNull? path = (Json.object members).nonNull? path := by
  obtain ⟨key, path, rfl⟩ := List.exists_cons_of_ne_nil hpath
  have hnull : Option.filter (fun found => !found.isNull) (Json.null.at? path) = none :=
    Json.nonNull?_null path
  rw [Json.nonNull?, Json.nonNull?, Json.at?_object_cons, Json.at?_object_cons]
  rcases h.nonNull?_lookup key with h | ⟨h, h'⟩ | ⟨h, h'⟩
  · rw [h]
  · rw [h, h', Option.bind_some, hnull]
    rfl
  · rw [h, h', Option.bind_some, hnull]
    rfl

/-- Paths whose first key has the same value have the same value. -/
theorem Json.nonNull?_congr {members members' : List (String × Json)} {key : String}
    (h : members'.lookup key = members.lookup key) (path : List String) :
    (object members').nonNull? (key :: path) = (object members).nonNull? (key :: path) := by
  rw [nonNull?, nonNull?, at?_object_cons, at?_object_cons, h]

theorem Domain.path_ne_nil (d : Domain) :
    ∀ reader ∈ d.readers, ∀ s ∈ reader.1.spellings, s.path ≠ [] := by
  cases d <;> decide

/-- A field that is stated at a container by itself is also stated inside it. -/
theorem Domain.goesDeeper_of_container (d : Domain) :
    ∀ reader ∈ d.readers, ∀ s ∈ reader.1.spellings, ∀ container ∈ containers,
      s.path = [container] → Field.goesDeeper reader.1.spellings s.path = true := by
  cases d <;> decide

theorem UnseenEdit.alikeAt {d : Domain} {members members' : List (String × Json)}
    (h : UnseenEdit d members members') {reader : Field × Value.Kind} (hreader : reader ∈ d.readers)
    {s : Spelling} (hs : s ∈ reader.1.spellings) :
    reader.1.AlikeAt (.object members) (.object members') s.path := by
  obtain ⟨first, path, hpath⟩ := List.exists_cons_of_ne_nil (d.path_ne_nil reader hreader s hs)
  have hfirst : first ∈ d.firstKeys := by
    rw [Domain.firstKeys, List.mem_flatMap]
    exact ⟨reader, hreader, List.mem_filterMap.mpr ⟨s, hs, by rw [hpath, List.head?_cons]⟩⟩
  have hdeeper := d.goesDeeper_of_container reader hreader s hs
  rw [hpath] at hdeeper ⊢
  cases h with
  | null h => exact Or.inl (h.nonNull? (List.cons_ne_nil first path))
  | put key hkey value =>
    refine Or.inl (Json.nonNull?_congr ?_ path)
    rw [Keyed.lookup_insert, if_neg (ne_of_mem_of_not_mem hfirst hkey)]
  | remove key hkey =>
    refine Or.inl (Json.nonNull?_congr ?_ path)
    rw [Keyed.lookup_erase, if_neg (ne_of_mem_of_not_mem hfirst hkey)]
  | @within inner inner' container hcontainer hlookup h =>
    have hlookup' := Keyed.lookup_insert container first (Json.object inner') members
    by_cases hkey : first = container
    · subst hkey
      rw [if_pos rfl] at hlookup'
      cases path with
      | nil =>
        refine Or.inr ⟨hdeeper first hcontainer rfl, inner, inner', ?_, ?_⟩
        · rw [Json.at?_object_cons, hlookup]
          rfl
        · rw [Json.at?_object_cons, hlookup']
          rfl
      | cons key path =>
        left
        rw [Json.nonNull?, Json.nonNull?, Json.at?_object_cons, Json.at?_object_cons, hlookup,
          hlookup']
        exact h.nonNull? (List.cons_ne_nil key path)
    · rw [if_neg hkey] at hlookup'
      exact Or.inl (Json.nonNull?_congr hlookup' path)

namespace FactRecord

theorem assemble_of_unseenEdit {d : Domain} {members members' : List (String × Json)}
    (h : UnseenEdit d members members') :
    assemble d (.object members') = assemble d (.object members) :=
  assemble_eq_of_find? fun _ hreader => Field.find?_eq_of_alikeAt fun _ hs => h.alikeAt hreader hs

theorem assemble_of_unseenEdits {d : Domain} {members members' : List (String × Json)}
    (h : Relation.ReflTransGen (UnseenEdit d) members members') :
    assemble d (.object members') = assemble d (.object members) := by
  induction h with
  | refl => rfl
  | tail _ hlast ih => exact (assemble_of_unseenEdit hlast).trans ih

theorem assemble_eq_of_own {d : Domain} {members members' : List (String × Json)}
    (h : ∀ fact, d.policy.declares fact = true → ∃ value,
      members.lookup fact = some value ∧ members'.lookup fact = some value ∧
        value.isNull = false) :
    assemble d (.object members') = assemble d (.object members) := by
  refine assemble_eq_of_find? fun reader hreader => ?_
  have hkind := d.kindOf?_of_mem_readers reader hreader
  have hdeclared : d.policy.declares reader.1.fact = true := by
    rw [d.declares_policy, hkind, Option.isSome_some]
  have hfact : reader.1.fact ∈ d.kinds.map (·.1) := Keyed.mem_of_lookup_eq_some hkind
  have hflat := Domain.isFlatIn_of_mem_readers hreader
  obtain ⟨value, hlookup, hlookup', hvalue⟩ := h reader.1.fact hdeclared
  rw [Field.find?_own hflat hfact hlookup hvalue, Field.find?_own hflat hfact hlookup' hvalue]

end FactRecord

/-- A run of edits that put in or take out nulls, or members under keys with which no spelling
starts, leaves the result of an assembly as it is, be it a record or an error. So does whatever else
is stated beside the facts of the domain under their own names. -/
theorem assemble_reads_no_more (d : Domain) (members members' : List (String × Json)) :
    (Relation.ReflTransGen (UnseenEdit d) members members' →
      FactRecord.assemble d (.object members') = FactRecord.assemble d (.object members)) ∧
    ((∀ fact, d.policy.declares fact = true → ∃ value,
        members.lookup fact = some value ∧ members'.lookup fact = some value ∧
          value.isNull = false) →
      FactRecord.assemble d (.object members') = FactRecord.assemble d (.object members)) :=
  ⟨FactRecord.assemble_of_unseenEdits, FactRecord.assemble_eq_of_own⟩

/-- A payment of which the balance and the risk are nested. -/
def nestedPayment : List (String × Json) :=
  [("account", .object [("available", .string "95.50")]), ("amount", .integer 80),
    ("risk", .object [("score", .string "0.2")])]

/-- The risks of the payment, with a null among them. -/
def annotatedRisk : List (String × Json) :=
  [("score", .string "0.2"), ("velocity_1h", .null)]

/-- The same payment with these risks, and with the name of the merchant. -/
def annotatedPayment : List (String × Json) :=
  Keyed.insert "merchant" (.string "ACME") (Keyed.insert "risk" (.object annotatedRisk) nestedPayment)

/-- A dispute with all its facts under their own names. -/
def statedDispute : List (String × Json) :=
  [("claim_date", .string "2025-09-15"), ("days_since_transaction", .integer 5),
    ("duplicate_charge", .bool true), ("transaction_date", .string "2025-05-01")]

theorem assemble_reads_no_more_annotated :
    Relation.ReflTransGen (UnseenEdit .authorization) nestedPayment annotatedPayment ∧
      FactRecord.assemble .authorization (.object annotatedPayment) =
        FactRecord.assemble .authorization (.object nestedPayment) ∧
      FactRecord.assemble .dispute (.object (statedDispute ++ [("txn_date", .bool true)])) =
        FactRecord.assemble .dispute (.object statedDispute) := by
  have hnull : UnseenEdit .authorization nestedPayment
      (Keyed.insert "risk" (.object annotatedRisk) nestedPayment) :=
    .within "risk" (by decide) rfl (.add "velocity_1h" rfl)
  have hmerchant : UnseenEdit .authorization
      (Keyed.insert "risk" (.object annotatedRisk) nestedPayment) annotatedPayment :=
    .put "merchant" (by decide) (.string "ACME")
  have hedits := (Relation.ReflTransGen.single hnull).tail hmerchant
  refine ⟨hedits, (assemble_reads_no_more _ _ _).1 hedits, (assemble_reads_no_more _ _ _).2 ?_⟩
  intro fact hfact
  rw [Policy.declares_iff] at hfact
  simp only [Domain.policy, Policy.dispute, List.map_cons, List.map_nil, List.mem_cons,
    List.not_mem_nil, or_false] at hfact
  rcases hfact with rfl | rfl | rfl | rfl <;> exact ⟨_, rfl, rfl, rfl⟩

end Verdict
