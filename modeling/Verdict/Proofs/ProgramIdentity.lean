import Verdict.Proofs.DateOrder
import Verdict.Proofs.EqualFacts
import Verdict.Proofs.ProgramText
import Verdict.Proofs.ProgramValuation
import Verdict.Proofs.RecordProgram

/-!
# Facts from the text of a program

The text of a proof program tells the facts of its record. The first line names the domain. The
lines for the declared facts stand at the same places in all programs of a domain; each of them is
read as a literal, which is the placeholder for an unknown fact and is read as the value of a known
one. Records with the same program text therefore have equal facts and are verified alike.
-/

namespace Verdict

/-! ## Literals -/

namespace Value

theorem same_of_meaning {v w : Value} (hkind : v.kind = w.kind) (h : v.meaning = w.meaning) :
    v.Same w := by
  cases v with
  | bool b =>
    cases w with
    | bool b' =>
      obtain rfl : b = b' := Meaning.truth.inj h
      exact .refl _
    | int _ | decimal _ | date _ => cases hkind
  | int n =>
    cases w with
    | int n' =>
      have hvalue : (n.toInt : ℚ) = n'.toInt := Meaning.number.inj h
      obtain rfl : n = n' := Int64.toInt_inj.mp (by exact_mod_cast hvalue)
      exact .refl _
    | bool _ | decimal _ | date _ => cases hkind
  | decimal d =>
    cases w with
    | decimal d' => exact .decimal (Meaning.number.inj h)
    | bool _ | int _ | date _ => cases hkind
  | date d =>
    cases w with
    | date d' =>
      have hday : (d.julianDay : ℚ) = d'.julianDay := Meaning.number.inj h
      obtain rfl : d = d' := Date.julianDay_inj.mp (by exact_mod_cast hday)
      exact .refl _
    | bool _ | int _ | decimal _ => cases hkind

/-- A field that is of one kind in two records has the same value in both if its values stand for
the same. -/
theorem rel_same_of_meaning {α : Type} {encode : α → Value} {kind : Kind}
    (hkind : ∀ a, (encode a).kind = kind) {a b : Option α}
    (h : (a.map encode).map meaning = (b.map encode).map meaning) :
    Option.Rel Same (a.map encode) (b.map encode) := by
  cases a with
  | none =>
    cases b with
    | none => exact .none
    | some b => cases h
  | some a =>
    cases b with
    | none => cases h
    | some b => exact .some (same_of_meaning ((hkind a).trans (hkind b).symm) (Option.some.inj h))

end Value

/-! ## Lines -/

/-- A fact is unknown in both sets or stands for the same, if the lines that give it its value have
the same text. -/
theorem Declaration.meaning_eq_of_binding {d : Declaration} (hword : SExpr.isWord d.fact = true)
    {facts facts' : FactSet} {line line' : Statement} (h : d.binding facts = .ok line)
    (h' : d.binding facts' = .ok line') (htext : line.text = line'.text) :
    (facts.get? d.fact).map Value.meaning = (facts'.get? d.fact).map Value.meaning := by
  obtain ⟨literal, remark, rfl, hplain, -, hvalue⟩ := d.exists_of_binding h
  obtain ⟨literal', remark', rfl, hplain', -, hvalue'⟩ := d.exists_of_binding h'
  obtain rfl := Statement.literal_eq_of_text_eq hword hplain hplain' htext
  -- No literal for a value is the placeholder.
  rcases hvalue with ⟨hnone, hunknown⟩ | ⟨v, hv, hliteral⟩ <;>
    rcases hvalue' with ⟨hnone', hunknown'⟩ | ⟨v', hv', hliteral'⟩
  · rw [hnone, hnone']
  · exact absurd hunknown (Value.literal?_meaning hliteral' fun _ => .truth true).2.1
  · exact absurd hunknown' (Value.literal?_meaning hliteral fun _ => .truth true).2.1
  · have hread := (Value.literal?_meaning hliteral fun _ => .truth true).1
    rw [(Value.literal?_meaning hliteral' fun _ => .truth true).1] at hread
    rw [hv, hv']
    exact hread.symm

namespace Policy

variable {facts facts' : FactSet}

/-- The first line of a program. -/
def header (policy : Policy) : Statement :=
  .comment ("proofgate program " ++ policy.id ++ " (" ++ policy.domain.name ++ ")")

/-- The lines before those that give facts their values. -/
def opening (policy : Policy) : Program :=
  policy.header :: .comment "declarations" :: policy.declarations ++ [.comment "bindings"]

/-- The lines after those that give facts their values. -/
def ending (policy : Policy) (facts : FactSet) : Program :=
  policy.knownBindings facts ++
    (.comment "invariants" :: policy.invariants.map policy.invariantAssertion) ++
    (.comment "actions" :: policy.actions.flatMap policy.actionLines)

/-- Only the lines that give declared facts their values can fail to be written. -/
theorem program_eq (policy : Policy) (facts : FactSet) : policy.program facts =
    policy.facts.mapM (Declaration.binding facts) >>= fun bindings =>
      Except.ok (policy.opening ++ (bindings ++ policy.ending facts)) := by
  simp [program, opening, header, ending, pure, Except.pure]

/-- The lines for the declared facts follow the same lines in every program of a policy. -/
theorem exists_bindings {policy : Policy} {program : Program}
    (h : policy.program facts = .ok program) :
    ∃ bindings, policy.facts.mapM (Declaration.binding facts) = .ok bindings ∧
      program = policy.opening ++ (bindings ++ policy.ending facts) := by
  rw [program_eq] at h
  obtain ⟨bindings, hbindings, h⟩ := exists_of_bind_eq_ok h
  cases h
  exact ⟨bindings, hbindings, rfl⟩

/-- The lines for the declared facts stand in the same order, so they can be compared one by one. -/
theorem meaning_eq_of_bindings {declarations : List Declaration}
    (hword : ∀ d ∈ declarations, SExpr.isWord d.fact = true) {bindings bindings' : Program}
    (h : declarations.mapM (Declaration.binding facts) = .ok bindings)
    (h' : declarations.mapM (Declaration.binding facts') = .ok bindings') {rest rest' : List String}
    (htext : bindings.map Statement.text ++ rest = bindings'.map Statement.text ++ rest') :
    ∀ d ∈ declarations,
      (facts.get? d.fact).map Value.meaning = (facts'.get? d.fact).map Value.meaning := by
  -- What follows the bindings may differ, so their ends need not be known to be at the same place.
  induction declarations generalizing bindings bindings' with
  | nil => exact nofun
  | cons d ds ih =>
    rw [List.mapM_cons] at h h'
    obtain ⟨line, hline, h⟩ := exists_of_bind_eq_ok h
    obtain ⟨lines, hlines, h⟩ := exists_of_bind_eq_ok h
    obtain ⟨line', hline', h'⟩ := exists_of_bind_eq_ok h'
    obtain ⟨lines', hlines', h'⟩ := exists_of_bind_eq_ok h'
    cases h
    cases h'
    obtain ⟨hfirst, hrest⟩ := List.cons.inj htext
    refine List.forall_mem_cons.mpr ⟨?_, ?_⟩
    · exact d.meaning_eq_of_binding (hword d List.mem_cons_self) hline hline' hfirst
    · exact ih (fun e he => hword e (List.mem_cons_of_mem d he)) hlines hlines' hrest

end Policy

/-! ## Records -/

theorem Domain.eq_of_header {d d' : Domain}
    (h : d.policy.header.text = d'.policy.header.text) : d = d' := by
  cases d <;> cases d' <;> first
    | rfl
    | exact absurd h (by decide)

namespace FactRecord

variable {r r' : FactRecord}

theorem map_meaning_eq_of_lookup
    (h : ∀ d ∈ r.domain.policy.facts,
      (r.known.get? d.fact).map Value.meaning = (r'.known.get? d.fact).map Value.meaning)
    {name : String} {value value' : Option Value} (hvalue : r.fields.lookup name = some value)
    (hvalue' : r'.fields.lookup name = some value') :
    value.map Value.meaning = value'.map Value.meaning := by
  have hname : name ∈ r.fields.map (·.1) := by
    by_contra hname
    rw [Keyed.lookup_eq_none_of_not_mem hname] at hvalue
    cases hvalue
  rw [← facts_policy] at hname
  obtain ⟨d, hd, rfl⟩ := List.mem_map.mp hname
  have hmeaning := h d hd
  rwa [get?_known_of_lookup hvalue, get?_known_of_lookup hvalue'] at hmeaning

/-- Records of one domain whose facts stand for the same have equal facts. -/
theorem same_of_meaning (hdomain : r'.domain = r.domain)
    (h : ∀ d ∈ r.domain.policy.facts,
      (r.known.get? d.fact).map Value.meaning = (r'.known.get? d.fact).map Value.meaning) :
    r.Same r' := by
  have hfield : ∀ {α : Type} {encode : α → Value} {kind : Value.Kind} {a b : Option α}
      (name : String), (∀ a, (encode a).kind = kind) →
      r.fields.lookup name = some (a.map encode) → r'.fields.lookup name = some (b.map encode) →
      Option.Rel Value.Same (a.map encode) (b.map encode) :=
    fun _ hkind ha hb => Value.rel_same_of_meaning hkind (map_meaning_eq_of_lookup h ha hb)
  refine ⟨hdomain, ?_⟩
  rcases domain_cases hdomain with ⟨f, f', rfl, rfl⟩ | ⟨f, f', rfl, rfl⟩ | ⟨f, f', rfl, rfl⟩ <;>
    simp only [fields, AuthorizationFacts.fields, DisputeFacts.fields, CreditLineFacts.fields,
      List.forall₂_cons, List.forall₂_nil_left_iff, true_and, and_true]
  · exact ⟨hfield "amount" (fun _ => rfl) rfl rfl,
      hfield "available_balance" (fun _ => rfl) rfl rfl,
      hfield "credit_limit" (fun _ => rfl) rfl rfl,
      hfield "risk_score" (fun _ => rfl) rfl rfl,
      hfield "merchant_category_code" (fun _ => rfl) rfl rfl,
      hfield "card_not_present" (fun _ => rfl) rfl rfl,
      hfield "velocity_1h" (fun _ => rfl) rfl rfl⟩
  · exact ⟨hfield "duplicate_charge" (fun _ => rfl) rfl rfl,
      hfield "transaction_date" (fun _ => rfl) rfl rfl,
      hfield "claim_date" (fun _ => rfl) rfl rfl,
      hfield "days_since_transaction" (fun _ => rfl) rfl rfl⟩
  · exact ⟨hfield "amount_requested" (fun _ => rfl) rfl rfl,
      hfield "current_limit" (fun _ => rfl) rfl rfl,
      hfield "income" (fun _ => rfl) rfl rfl,
      hfield "tenure_months" (fun _ => rfl) rfl rfl,
      hfield "delinquent" (fun _ => rfl) rfl rfl⟩

end FactRecord

/-- Records whose proof programs have the same text are of one domain and have equal facts, and so
they are verified alike. -/
theorem program_text_identifies {r r' : FactRecord} {program program' : Program}
    (h : r.program = .ok program) (h' : r'.program = .ok program')
    (htext : program.text = program'.text) : r.Same r' ∧ r'.verify = r.verify := by
  have hlines := Program.map_text_eq (Domain.isLine_of_mem_program h)
    (Domain.isLine_of_mem_program h') htext
  obtain ⟨bindings, hbindings, rfl⟩ := Policy.exists_bindings h
  obtain ⟨bindings', hbindings', rfl⟩ := Policy.exists_bindings h'
  have hdomain : r.domain = r'.domain := Domain.eq_of_header (List.cons.inj hlines).1
  rw [← hdomain] at hbindings' hlines
  simp only [List.map_append, List.append_cancel_left_eq] at hlines
  have hword : ∀ d ∈ r.domain.policy.facts, SExpr.isWord d.fact = true :=
    fun _ hd => Policy.isWord_fact r.domain.wellFormed_policy hd
  have hsame : r.Same r' := FactRecord.same_of_meaning hdomain.symm
    (Policy.meaning_eq_of_bindings hword hbindings hbindings' hlines)
  exact ⟨hsame, hsame.verify⟩

/-- A payment of which only the amount is known. -/
def amountOnly (amount : Option Decimal) : FactRecord :=
  .authorization ⟨amount, none, none, none, none, none, none⟩

/-- A whole number is written with one place, so it is not told from the decimal of that place. -/
theorem program_text_identifies_amountOnly :
    amountOnly (Decimal.ofParts? false 5 0) ≠ amountOnly (Decimal.ofParts? false 50 1) ∧
      ∃ program, (amountOnly (Decimal.ofParts? false 5 0)).program = .ok program ∧
        (amountOnly (Decimal.ofParts? false 50 1)).program = .ok program ∧
        (amountOnly (Decimal.ofParts? false 5 0)).Same
          (amountOnly (Decimal.ofParts? false 50 1)) := by
  have hsame : (amountOnly (Decimal.ofParts? false 50 1)).program =
      (amountOnly (Decimal.ofParts? false 5 0)).program := by rfl
  obtain ⟨program, hprogram⟩ := (amountOnly (Decimal.ofParts? false 5 0)).exists_program
  have hprogram' := hsame.trans hprogram
  exact ⟨by decide, program, hprogram, hprogram',
    (program_text_identifies hprogram hprogram' rfl).1⟩

end Verdict
