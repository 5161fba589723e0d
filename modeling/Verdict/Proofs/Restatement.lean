import Verdict.Proofs.EqualFacts
import Verdict.Proofs.UnreadMembers

/-!
# A decimal stated by another value

Two values that are read as equal decimals can stand for one another at any spelling of a decimal in
a request. No other field reads the place, and the records that are assembled have equal facts.
-/

namespace Verdict

/-- Both values are read as decimals, and the decimals are equal. -/
def Json.StateOne (v v' : Json) : Prop :=
  ∃ a b, Decimal.ofJson? v = some a ∧ Decimal.ofJson? v' = some b ∧ a.value = b.value

/-- Decimals that are known are equal. -/
def Decimal.SameKnown (x x' : Option Decimal) : Prop :=
  x'.map Decimal.value = x.map Decimal.value

theorem Decimal.sameKnown_refl (x : Option Decimal) : SameKnown x x := rfl

variable {v v' request : Json} {d : Domain}

theorem Decimal.scalar_of_ofJson? {a : Decimal} (h : Decimal.ofJson? v = some a) :
    v.isNull = false ∧ v.isObject = false := by
  cases v <;> first | exact ⟨rfl, rfl⟩ | cases h

/-! ## Places of a request -/

/-- A spelling leads to another one only if an object can stand there. -/
theorem Domain.leads_cases (d : Domain) :
    ∀ reader ∈ d.readers, ∀ reader' ∈ d.readers, ∀ s ∈ reader.1.spellings,
      ∀ t ∈ reader'.1.spellings, s.path <+: t.path →
        (reader.1.fact = reader'.1.fact ∧ s = t) ∨
          s.path ≠ t.path ∧ Field.goesDeeper reader.1.spellings s.path = true := by
  cases d <;> decide

theorem Domain.eq_of_fact_eq {reader reader' : Field × Value.Kind} (h : reader ∈ d.readers)
    (h' : reader' ∈ d.readers) (hfact : reader.1.fact = reader'.1.fact) : reader = reader' := by
  have hnodup : (d.readers.map (·.1.fact)).Nodup := by cases d <;> decide
  exact List.inj_on_of_nodup_map hnodup h h' hfact

/-- At every other spelling the requests look alike. -/
theorem Domain.alikeAt_insertAt {reader own : Field × Value.Kind} (hreader : reader ∈ d.readers)
    (hown : own ∈ d.readers) {s t : Spelling} (hs : s ∈ own.1.spellings)
    (ht : t ∈ reader.1.spellings) (hother : reader.1.fact = own.1.fact → t ≠ s)
    (hv : v.isObject = false) (hv' : v'.isObject = false) (request : Json) :
    reader.1.AlikeAt (.insertAt v s.path request) (.insertAt v' s.path request) t.path := by
  by_cases hto : t.path <+: s.path
  · rcases d.leads_cases reader hreader own hown t ht s hs hto with ⟨hfact, heq⟩ | ⟨hne, hdeeper⟩
    · exact absurd heq (hother hfact)
    -- the place is inside an object, which is a container in both requests
    · obtain ⟨rest, hrest⟩ := hto
      have hnil : rest ≠ [] := by
        rintro rfl
        exact hne (by rw [← hrest, List.append_nil])
      obtain ⟨inner, hinner⟩ := Json.exists_object_insertAt v t.path hnil request
      obtain ⟨inner', hinner'⟩ := Json.exists_object_insertAt v' t.path hnil request
      rw [hrest] at hinner hinner'
      exact .inr ⟨hdeeper, inner, inner', hinner, hinner'⟩
  · left
    by_cases hfrom : s.path <+: t.path
    · obtain ⟨rest, hrest⟩ := hfrom
      have hnil : rest ≠ [] := by
        rintro rfl
        rw [List.append_nil] at hrest
        exact hto (hrest ▸ List.prefix_rfl)
      rw [Json.nonNull?, Json.nonNull?, ← hrest, Json.at?_insertAt_append, Json.at?_insertAt_append,
        Json.at?_eq_none hv hnil, Json.at?_eq_none hv' hnil]
    · have hparts : Json.Parts s.path t.path := ⟨hfrom, hto⟩
      rw [Json.nonNull?, Json.nonNull?, Json.at?_insertAt_of_parts hparts,
        Json.at?_insertAt_of_parts hparts]

/-! ## Reading -/

/-- What is found is the same, or it is one of the two values in the same place. -/
def Restated (v v' : Json) (x x' : Json × Bool) : Prop :=
  x' = x ∨ ∃ negated, x = (v, negated) ∧ x' = (v', negated)

theorem findSome?_rel {α β : Type} {R : β → β → Prop} {f g : α → Option β} {l : List α}
    (h : ∀ a ∈ l, Option.Rel R (f a) (g a)) : Option.Rel R (l.findSome? f) (l.findSome? g) := by
  induction l with
  | nil => exact .none
  | cons a l ih =>
    have hfirst := h a List.mem_cons_self
    rw [List.findSome?_cons, List.findSome?_cons]
    generalize f a = x, g a = y at hfirst
    cases hfirst with
    | some h => exact .some h
    | none => exact ih fun b hb => h b (List.mem_cons_of_mem a hb)

theorem Field.stated?_insertAt {field : Field} {s : Spelling}
    (hv : v.isNull = false ∧ v.isObject = false) (request : Json) :
    stated? field.spellings (.insertAt v s.path request) s = some (v, s.negated) := by
  have hat := Json.at?_insertAt_append v s.path [] request
  rw [List.append_nil] at hat
  rw [stated?, hat]
  simp [Json.at?, hv]

theorem Domain.find?_insertAt {own : Field × Value.Kind} (hown : own ∈ d.readers) {s : Spelling}
    (hs : s ∈ own.1.spellings) (hv : v.isNull = false ∧ v.isObject = false)
    (hv' : v'.isNull = false ∧ v'.isObject = false) (request : Json) :
    Option.Rel (Restated v v') (own.1.find? (.insertAt v s.path request))
      (own.1.find? (.insertAt v' s.path request)) := by
  refine findSome?_rel fun t ht => ?_
  by_cases hself : t = s
  · subst hself
    rw [Field.stated?_insertAt hv, Field.stated?_insertAt hv']
    exact .some (.inr ⟨_, rfl, rfl⟩)
  · have hrefl : ∀ x, Option.Rel (Restated v v') x x := by
      intro x
      cases x with
      | none => exact .none
      | some x => exact .some (.inl rfl)
    have hsame : Field.stated? own.1.spellings (.insertAt v' s.path request) t =
        Field.stated? own.1.spellings (.insertAt v s.path request) t := by
      rcases d.alikeAt_insertAt hown hown hs ht (fun _ => hself) hv.2 hv'.2 request with
        hsame | ⟨hdeeper, inner, inner', hinner, hinner'⟩
      · exact Field.stated?_eq_of_nonNull? hsame
      · rw [Field.stated?_eq_none_of_container hdeeper hinner,
          Field.stated?_eq_none_of_container hdeeper hinner']
    rw [hsame]
    exact hrefl _

theorem Domain.find?_insertAt_other {reader own : Field × Value.Kind} (hreader : reader ∈ d.readers)
    (hown : own ∈ d.readers) {s : Spelling} (hs : s ∈ own.1.spellings)
    (hother : reader.1.fact ≠ own.1.fact) (hv : v.isObject = false) (hv' : v'.isObject = false)
    (request : Json) :
    reader.1.find? (.insertAt v' s.path request) = reader.1.find? (.insertAt v s.path request) :=
  Field.find?_eq_of_alikeAt fun _ ht =>
    d.alikeAt_insertAt hreader hown hs ht (fun hfact => absurd hfact hother) hv hv' request

theorem Field.decimal_alike {field : Field} {request request' : Json}
    (h : Option.Rel (Restated v v') (field.find? request) (field.find? request'))
    (hone : v.StateOne v') :
    Alike Decimal.SameKnown (field.decimal request) (field.decimal request') := by
  obtain ⟨a, b, ha, hb, hvalue⟩ := hone
  simp only [Field.decimal, Field.read]
  generalize field.find? request = x, field.find? request' = x' at h
  cases h with
  | none => exact .ok rfl
  | some h =>
    rcases h with rfl | ⟨negated, rfl, rfl⟩
    · exact .of_eq Decimal.sameKnown_refl rfl
    · simp only [ha, hb]
      exact .ok (congrArg some hvalue.symm)

/-! ## Records -/

theorem Value.same_of_sameKnown {x x' : Option Decimal} (h : Decimal.SameKnown x x') :
    Option.Rel Value.Same (x.map .decimal) (x'.map .decimal) := by
  rw [Decimal.SameKnown] at h
  cases x with
  | none =>
    cases x' with
    | none => exact .none
    | some b => cases h
  | some a =>
    cases x' with
    | none => cases h
    | some b => exact .some (.decimal (Option.some.inj h).symm)

theorem Value.sameOption_refl (x : Option Value) : Option.Rel Value.Same x x := by
  cases x with
  | none => exact .none
  | some v => exact .some (.refl v)

theorem FactRecord.same_refl (r : FactRecord) : r.Same r where
  domain := rfl
  fields := List.forall₂_same.mpr fun field _ => ⟨rfl, Value.sameOption_refl field.2⟩

/-- Fields that are read alike make records of equal facts. -/
theorem FactRecord.assemble_alike {request request' : Json} (hobject : request.isObject = true)
    (hobject' : request'.isObject = true)
    (hdecimal : ∀ reader ∈ d.readers, reader.2 = .decimal →
      Alike Decimal.SameKnown (reader.1.decimal request) (reader.1.decimal request'))
    (hother : ∀ reader ∈ d.readers, reader.2 ≠ .decimal →
      reader.1.find? request' = reader.1.find? request) :
    Alike FactRecord.Same (assemble d request) (assemble d request') := by
  have hread : ∀ reader ∈ d.readers, reader.2 ≠ .decimal → ∀ {α : Type} (kind : Value.Kind)
      (ofJson? : Json → Bool → Option α),
        reader.1.read kind ofJson? request' = reader.1.read kind ofJson? request := by
    intro reader hreader hkind α kind ofJson?
    rw [Field.read, Field.read, hother reader hreader hkind]
  rw [assemble.eq_def, assemble.eq_def, if_pos hobject, if_pos hobject']
  cases d with
  | authorization =>
    simp only [Domain.readers, List.forall_mem_cons, forall_const, ne_eq, reduceCtorEq,
      not_false_eq_true, not_true_eq_false, false_implies, true_and] at hdecimal hread
    obtain ⟨hamount, hbalance, hlimit, hrisk, -⟩ := hdecimal
    obtain ⟨hchannel, hcode, hvelocity, -⟩ := hread
    refine .bind (R := fun f f' => Same (.authorization f) (.authorization f')) ?_
      fun _ _ h => .ok h
    simp only [AuthorizationFacts.assemble, Field.bool, Field.int, hchannel, hcode, hvelocity]
    refine .bind (.of_eq (fun _ => rfl) rfl) fun channel _ hchannel => ?_
    refine .bind hamount fun amount amount' hamount => ?_
    refine .bind hbalance fun balance balance' hbalance => ?_
    refine .bind hlimit fun limit limit' hlimit => ?_
    refine .bind hrisk fun risk risk' hrisk => ?_
    refine .bind (.of_eq (fun _ => rfl) rfl) fun code _ hcode => ?_
    refine .bind (.of_eq (fun _ => rfl) rfl) fun velocity _ hvelocity => ?_
    subst hchannel hcode hvelocity
    exact .ok ⟨rfl, by simp [fields, AuthorizationFacts.fields, Value.same_of_sameKnown,
      Value.sameOption_refl, hamount, hbalance, hlimit, hrisk]⟩
  | dispute =>
    simp only [Domain.readers, List.forall_mem_cons, ne_eq, reduceCtorEq, not_false_eq_true,
      forall_const] at hread
    obtain ⟨hduplicate, hstart, hfinish, hdays, -⟩ := hread
    simp only [DisputeFacts.assemble, Field.bool, Field.date, Field.int, hduplicate, hstart,
      hfinish, hdays]
    exact .of_eq same_refl rfl
  | creditLineIncrease =>
    simp only [Domain.readers, List.forall_mem_cons, forall_const, ne_eq, reduceCtorEq,
      not_false_eq_true, not_true_eq_false, false_implies, true_and] at hdecimal hread
    obtain ⟨hrequested, hlimit, hincome, -⟩ := hdecimal
    obtain ⟨htenure, hdelinquent, -⟩ := hread
    refine .bind (R := fun f f' => Same (.creditLineIncrease f) (.creditLineIncrease f')) ?_
      fun _ _ h => .ok h
    simp only [CreditLineFacts.assemble, Field.bool, Field.int, htenure, hdelinquent]
    refine .bind hrequested fun requested requested' hrequested => ?_
    refine .bind hlimit fun limit limit' hlimit => ?_
    refine .bind hincome fun income income' hincome => ?_
    refine .bind (.of_eq (fun _ => rfl) rfl) fun tenure _ htenure => ?_
    refine .bind (.of_eq (fun _ => rfl) rfl) fun delinquent _ hdelinquent => ?_
    subst htenure hdelinquent
    exact .ok ⟨rfl, by simp [fields, CreditLineFacts.fields, Value.same_of_sameKnown,
      Value.sameOption_refl, hrequested, hlimit, hincome]⟩

/-- Values that are read as equal decimals state the same facts, wherever a request has the one or
the other of them for a decimal. -/
theorem FactRecord.assemble_insertAt_alike {own : Field × Value.Kind} (hown : own ∈ d.readers)
    (hkind : own.2 = .decimal) {s : Spelling} (hs : s ∈ own.1.spellings) (hone : v.StateOne v')
    (request : Json) :
    Alike FactRecord.Same (assemble d (.insertAt v s.path request))
      (assemble d (.insertAt v' s.path request)) := by
  obtain ⟨a, b, ha, hb, -⟩ := id hone
  have hv := Decimal.scalar_of_ofJson? ha
  have hv' := Decimal.scalar_of_ofJson? hb
  have hpath := d.path_ne_nil own hown s hs
  refine assemble_alike (Json.isObject_insertAt v hpath request)
    (Json.isObject_insertAt v' hpath request) (fun reader hreader _ => ?_)
      fun reader hreader hother => ?_
  · by_cases hfact : reader.1.fact = own.1.fact
    · rw [Domain.eq_of_fact_eq hreader hown hfact]
      exact Field.decimal_alike (d.find?_insertAt hown hs hv hv' request) hone
    · have hfind := d.find?_insertAt_other hreader hown hs hfact hv.2 hv'.2 request
      refine .of_eq Decimal.sameKnown_refl ?_
      simp only [Field.decimal, Field.read, hfind]
  · refine d.find?_insertAt_other hreader hown hs (fun hfact => ?_) hv.2 hv'.2 request
    exact hother (Domain.eq_of_fact_eq hreader hown hfact ▸ hkind)

end Verdict
