import Verdict.Proofs.DateText
import Verdict.Proofs.DecimalText
import Verdict.Proofs.ProgramText
import Verdict.Proofs.ReasonNames
import Verdict.Proofs.TrueExplanations

/-!
# Names in explanations

The explanation of an unsatisfiable request puts each name between back quotes. No fact has a back
quote in its name and no value has one in its text, so no reason contains one, and the names can be
read off the text.
-/

namespace Verdict

/-- The mark before and after a name. -/
def backQuote : Char := '\x60'

/-- The text contains no mark. -/
def Unquoted (s : String) : Prop :=
  backQuote ∉ s.toList

instance (s : String) : Decidable (Unquoted s) :=
  inferInstanceAs (Decidable (backQuote ∉ s.toList))

@[simp] theorem unquoted_append {s t : String} : Unquoted (s ++ t) ↔ Unquoted s ∧ Unquoted t := by
  simp [Unquoted]

theorem unquoted_intercalate {separator : String} {texts : List String}
    (hseparator : Unquoted separator) (h : ∀ s ∈ texts, Unquoted s) :
    Unquoted (separator.intercalate texts) := by
  intro hmem
  rw [String.toList_intercalate] at hmem
  obtain ⟨cs, hcs, hmem⟩ := exists_of_mem_intercalate hseparator hmem
  obtain ⟨s, hs, rfl⟩ := List.mem_map.mp hcs
  exact h s hs hmem

/-! ## Values -/

theorem ne_backQuote_of_isDigit {c : Char} (h : c.isDigit = true) : c ≠ backQuote := by
  rintro rfl
  exact absurd h (by decide)

theorem unquoted_natural (n : Nat) : Unquoted (toString n) := by
  intro hmem
  rw [Nat.toString_eq_ofList_toDigits, String.toList_ofList] at hmem
  exact ne_backQuote_of_isDigit (Text.isDigit_of_mem_digits hmem) rfl

theorem unquoted_integer (n : Int) : Unquoted (toString n) := by
  cases n with
  | ofNat m => exact unquoted_natural m
  | negSucc m => exact unquoted_append.mpr ⟨by decide, unquoted_natural (m + 1)⟩

theorem Decimal.unquoted_text (d : Decimal) : Unquoted d.text := by
  intro hmem
  rw [text, String.toList_ofList, chars] at hmem
  have hdigits : backQuote ∉ unsignedText d.coefficient d.scale := by
    intro hmem
    rcases isDigit_of_mem_unsignedText hmem with hdigit | hpoint
    · exact ne_backQuote_of_isDigit hdigit rfl
    · exact absurd hpoint (by decide)
  split at hmem
  · rcases List.mem_cons.mp hmem with hsign | hmem
    · exact absurd hsign (by decide)
    · exact hdigits hmem
  · exact hdigits hmem

theorem Date.unquoted_text (d : Date) : Unquoted d.text := by
  intro hmem
  rw [text, String.toList_ofList] at hmem
  rcases isDigit_of_mem_chars hmem with hdash | hdigit
  · exact absurd hdash (by decide)
  · exact ne_backQuote_of_isDigit hdigit rfl

theorem Value.unquoted_text (v : Value) : Unquoted v.text := by
  cases v with
  | bool b => cases b <;> decide
  | int n => exact unquoted_integer _
  | decimal d => exact d.unquoted_text
  | date d => exact d.unquoted_text

/-! ## Reasons -/

theorem Comparison.unquoted_symbol (c : Comparison) : Unquoted c.symbol := by
  cases c <;> decide

theorem Comparison.unquoted_sign (c : Comparison) : Unquoted c.sign := by
  cases c <;> decide

theorem Value.Kind.unquoted_name (k : Value.Kind) : Unquoted k.name := by
  cases k <;> decide

theorem Fault.unquoted_message {f : Fault} (h : ∀ fact ∈ f.fact?.toList, Unquoted fact) :
    Unquoted f.message := by
  cases f with
  | unknownFact fact =>
    change Unquoted ("unknown fact: " ++ fact)
    exact unquoted_append.mpr ⟨by decide, h fact (List.mem_singleton_self fact)⟩
  | notBool found =>
    change Unquoted ("type error: expected Bool, got " ++ found.name)
    exact unquoted_append.mpr ⟨by decide, found.unquoted_name⟩
  | notInt found =>
    change Unquoted ("type error: expected Int, got " ++ found.name)
    exact unquoted_append.mpr ⟨by decide, found.unquoted_name⟩
  | notNumeric found =>
    change Unquoted ("type error: cannot coerce " ++ found.name ++ " to Decimal")
    simp only [unquoted_append]
    exact ⟨⟨by decide, found.unquoted_name⟩, by decide⟩
  | unordered comparison =>
    change Unquoted ("type error: operator '" ++ comparison.symbol ++ "' not defined for Bool")
    simp only [unquoted_append]
    exact ⟨⟨by decide, comparison.unquoted_symbol⟩, by decide⟩
  | overflow base factor =>
    change Unquoted
      ("numeric overflow: " ++ base.text ++ " * " ++ factor.text ++ " overflows")
    simp only [unquoted_append]
    exact ⟨⟨⟨⟨by decide, base.unquoted_text⟩, by decide⟩, factor.unquoted_text⟩, by decide⟩

theorem Quote.unquoted_text {q : Quote} (h : ∀ fact ∈ q.term.fact?.toList, Unquoted fact) :
    Unquoted q.text := by
  obtain ⟨term, value⟩ := q
  cases value with
  | none =>
    rw [text, unquoted_append]
    refine ⟨?_, by decide⟩
    cases term with
    | fact name | scaled name factor => exact h name (List.mem_singleton_self name)
    | int _ | decimal _ => exact (by decide : Unquoted "?")
  | some v =>
    cases term with
    | fact name =>
      simp only [text, unquoted_append]
      exact ⟨⟨h name (List.mem_singleton_self name), by decide⟩, v.unquoted_text⟩
    | scaled name factor =>
      simp only [text, unquoted_append]
      exact ⟨⟨⟨⟨h name (List.mem_singleton_self name), by decide⟩, factor.unquoted_text⟩,
        by decide⟩, v.unquoted_text⟩
    | int _ | decimal _ => exact v.unquoted_text

theorem ReasonClause.unquoted_text {clause : ReasonClause}
    (h : ∀ fact ∈ clause.facts, Unquoted fact) : Unquoted clause.text := by
  cases clause with
  | comparison left c right =>
    simp only [text, unquoted_append]
    exact ⟨⟨⟨⟨Quote.unquoted_text fun fact hfact => h fact (List.mem_append_left _ hfact), by decide⟩,
      c.unquoted_sign⟩, by decide⟩,
      Quote.unquoted_text fun fact hfact => h fact (List.mem_append_right _ hfact)⟩
  | flag fact value =>
    simp only [text, unquoted_append]
    exact ⟨⟨h fact (List.mem_singleton_self fact), by decide⟩, (Value.bool value).unquoted_text⟩
  | known facts | unknown facts =>
    exact unquoted_append.mpr ⟨unquoted_intercalate (by decide) h, by decide⟩
  | allowed quote | blocked quote =>
    exact unquoted_append.mpr ⟨Quote.unquoted_text h, by decide⟩
  | fault f => exact Fault.unquoted_message h

namespace Reason

mutual

theorem unquoted_text : ∀ r : Reason,
    (r.Every fun clause => ∀ fact ∈ clause.facts, Unquoted fact) → Unquoted r.text
  | clause c, h => ReasonClause.unquoted_text (every_clause.mp h)
  | listed parts, h => unquoted_intercalate (by decide) (unquoted_texts parts (every_listed.mp h))
  | joined parts, h => unquoted_intercalate (by decide) (unquoted_texts parts (every_joined.mp h))

theorem unquoted_texts : ∀ parts : List Reason,
    (∀ part ∈ parts, part.Every fun clause => ∀ fact ∈ clause.facts, Unquoted fact) →
      ∀ text ∈ texts parts, Unquoted text
  | [], _ => nofun
  | r :: rest, h => by
    obtain ⟨hr, hrest⟩ := List.forall_mem_cons.mp h
    exact List.forall_mem_cons.mpr ⟨r.unquoted_text hr, unquoted_texts rest hrest⟩

end

end Reason

/-! ## Names between marks -/

/-- Every second piece, if another one comes after it. -/
def everySecond {α : Type} : List α → List α
  | _ :: piece :: next :: rest => piece :: everySecond (next :: rest)
  | _ => []

/-- The texts between an opening mark and its closing mark. -/
def backQuoted (text : String) : List String :=
  everySecond ((text.toList.splitOn backQuote).map String.ofList)

theorem backQuoted_of_unquoted {text : String} (h : Unquoted text) : backQuoted text = [] := by
  rw [backQuoted, List.splitOn_eq_singleton h]
  rfl

theorem backQuoted_append {before name : String} (hbefore : Unquoted before) (hname : Unquoted name)
    (after : String) :
    backQuoted (before ++ "`" ++ name ++ "`" ++ after) = name :: backQuoted after := by
  have htext : (before ++ "`" ++ name ++ "`" ++ after).toList =
      before.toList ++ backQuote :: (name.toList ++ backQuote :: after.toList) := by
    have hmark : "`".toList = [backQuote] := rfl
    simp [hmark]
  obtain ⟨next, rest, hpieces⟩ := List.exists_cons_of_ne_nil
    (List.splitOn_ne_nil backQuote after.toList)
  rw [backQuoted, backQuoted, htext, List.splitOn_append_cons_self_of_not_mem hbefore,
    List.splitOn_append_cons_self_of_not_mem hname, hpieces]
  simp [everySecond]

namespace Violation

/-- The text of a violation after the name. -/
def remark (v : Violation) : String :=
  " (" ++ (match v.reason with
    | some r => r.text
    | none => "not an action of " ++ v.policyId) ++ ")"

theorem text_eq (v : Violation) : v.text = "`" ++ v.name ++ "`" ++ v.remark := by
  have hmark : "` (" = "`" ++ " (" := rfl
  obtain ⟨name, reason, policyId⟩ := v
  cases reason <;> simp only [text, remark, hmark, String.append_assoc]

/-- Neither the name nor the rest of the text contains a mark. -/
def IsUnquoted (v : Violation) : Prop :=
  Unquoted v.name ∧ Unquoted v.remark

/-- The names are read off violations in their order. -/
theorem backQuoted_texts {vs : List Violation} (h : ∀ v ∈ vs, v.IsUnquoted) {before after : String}
    (hbefore : Unquoted before) (hafter : Unquoted after) :
    backQuoted (before ++ texts vs ++ after) = vs.map (·.name) := by
  -- The remark on one violation stands before the name of the next one.
  induction vs generalizing before with
  | nil =>
    refine backQuoted_of_unquoted ?_
    exact unquoted_append.mpr ⟨unquoted_append.mpr ⟨hbefore, by decide⟩, hafter⟩
  | cons v rest ih =>
    obtain ⟨⟨hname, hremark⟩, hrest⟩ := List.forall_mem_cons.mp h
    cases rest with
    | nil =>
      have htext : before ++ texts [v] ++ after =
          before ++ "`" ++ v.name ++ "`" ++ (v.remark ++ after) := by
        rw [texts, List.map_singleton, String.intercalate_singleton, text_eq]
        simp only [String.append_assoc]
      rw [htext, backQuoted_append hbefore hname,
        backQuoted_of_unquoted (unquoted_append.mpr ⟨hremark, hafter⟩)]
      rfl
    | cons w rest =>
      have htext : before ++ texts (v :: w :: rest) ++ after =
          before ++ "`" ++ v.name ++ "`" ++ (v.remark ++ "; " ++ texts (w :: rest) ++ after) := by
        rw [texts, List.map_cons, List.map_cons, String.intercalate_cons_cons, text_eq, texts,
          List.map_cons]
        simp only [String.append_assoc]
      rw [htext, backQuoted_append hbefore hname,
        ih hrest (unquoted_append.mpr ⟨hremark, by decide⟩)]
      rfl

end Violation

theorem Explanation.backQuoted_violated (d : Domain) {vs : List Violation}
    (h : ∀ v ∈ vs, v.IsUnquoted) : backQuoted (violated d vs).text = vs.map (·.name) := by
  refine Violation.backQuoted_texts h ?_ (by decide)
  cases d <;> decide

/-! ## Entries of a core -/

theorem unquoted_of_isWord {s : String} (h : SExpr.isWord s = true) : Unquoted s := by
  intro hmem
  rw [SExpr.isWord, Bool.and_eq_true] at h
  exact absurd (List.all_eq_true.mp h.2 backQuote hmem) (by decide)

/-- A name that stands for a clause which does not hold is explained without further marks. -/
theorem Policy.WordNames.isUnquoted_violation {policy : Policy} (hwords : policy.WordNames)
    {facts : FactSet} {name : String} (h : policy.Refutes facts name) :
    (policy.violation facts name).IsUnquoted := by
  obtain ⟨clause, hclause, rfl, hfails, hreason⟩ := violation_of_refutes h
  have htext : Unquoted (clause.condition.reason facts false).text := by
    refine Reason.unquoted_text _ fun statement hstatement fact hfact => ?_
    refine unquoted_of_isWord (hwords.mentions clause hclause fact ?_)
    exact Predicate.mem_mentions_of_reason (Predicate.mayBe_of_holds hfails) statement hstatement
      fact hfact
  refine ⟨unquoted_of_isWord (hwords.names clause hclause), ?_⟩
  rw [Violation.remark, hreason]
  exact unquoted_append.mpr ⟨unquoted_append.mpr ⟨by decide, htext⟩, by decide⟩

/-- The names that are marked are those of the core, in their order. -/
theorem Domain.backQuoted_violated {d : Domain} {facts : FactSet} {core : List String}
    (h : ∀ name ∈ core, d.policy.Refutes facts name) :
    backQuoted (Explanation.violated d (core.map (d.policy.violation facts))).text = core := by
  rw [Explanation.backQuoted_violated, List.map_map]
  · exact List.map_id _
  · intro v hv
    obtain ⟨name, hname, rfl⟩ := List.mem_map.mp hv
    exact d.wordNames_policy.isUnquoted_violation (h name hname)

end Verdict
