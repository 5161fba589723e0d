import Verdict.Proofs.ProgramText

/-!
# Valuations of a proof program

The bindings of a proof program give values to the symbols of its facts. A valuation respects them
if it gives each bound symbol the value that its literal is read as, and each symbol that is bound
to the placeholder some value of its sort. Such a valuation has, for each known fact, the value of
this fact.
-/

namespace Verdict

/-- The value is of the sort. -/
def FactSort.admits : FactSort → Meaning → Bool
  | real, .number _ => true
  | int, .number x => x.isInt
  | bool, .truth _ => true
  | _, _ => false

/-- What the value of a fact stands for. -/
def Value.meaning : Value → Meaning
  | bool b => .truth b
  | int n => .number n.toInt
  | decimal d => .number d.value
  | date d => .number d.julianDay

/-- The valuation gives every bound symbol the value of its literal, or some value of its sort if it
is bound to the placeholder. -/
def Policy.Respects (policy : Policy) (ν : Valuation) (program : Program) : Prop :=
  ∀ symbol literal remark, Statement.bind symbol literal remark ∈ program →
    (literal ≠ .atom unknownSymbol →
      (SExpr.read? literal.text).bind (SExpr.meaning? ν) = some (ν symbol)) ∧
    (literal = .atom unknownSymbol →
      ∀ sort, policy.sortOf? symbol = some sort → sort.admits (ν symbol) = true)

/-- The valuation gives every declared fact a value of its sort, and every known one its value. -/
structure Policy.Interprets (policy : Policy) (facts : FactSet) (ν : Valuation) : Prop where
  sort : ∀ {fact sort}, policy.sortOf? fact = some sort → sort.admits (ν fact) = true
  value : ∀ {fact sort value}, policy.sortOf? fact = some sort → facts.get? fact = some value →
    ν fact = value.meaning

/-! ## Literals -/

namespace SExpr

variable {ν : Valuation}

theorem signed_ne_unknown {s : String} {x : ℚ} (h : IsNumeral s x) (negative : Bool) :
    signed negative s ≠ .atom unknownSymbol := by
  cases negative with
  | false =>
    intro heq
    have hdigit := h.digit
    rw [atom.inj heq] at hdigit
    exact absurd hdigit (by decide)
  | true => exact SExpr.noConfusion

theorem int_ne_unknown (n : ℤ) : int n ≠ .atom unknownSymbol :=
  signed_ne_unknown (isNumeral_natural n.natAbs) _

theorem real_ne_unknown (d : Decimal) : real d ≠ .atom unknownSymbol :=
  signed_ne_unknown (isNumeral_abs d) _

theorem bool_ne_unknown (b : Bool) : atom (toString b) ≠ .atom unknownSymbol := by
  cases b <;> exact fun heq => absurd (atom.inj heq) (by decide)

theorem IsPlain.read?_meaning {e : SExpr} {m : Meaning} (h : e.IsPlain)
    (hm : meaning? ν e = some m) : (read? e.text).bind (meaning? ν) = some m := by
  rw [h.read?_text, Option.bind_some, hm]

theorem read?_int (n : ℤ) : (read? (int n).text).bind (meaning? ν) = some (.number n) :=
  (isPlain_int n).read?_meaning (meaning?_int n)

theorem read?_real (d : Decimal) :
    (read? (real d).text).bind (meaning? ν) = some (.number d.value) :=
  (isPlain_real d).read?_meaning (meaning?_real d)

theorem read?_bool (b : Bool) :
    (read? (atom (toString b)).text).bind (meaning? ν) = some (.truth b) := by
  cases b <;> exact IsPlain.read?_meaning (.atom (by decide)) rfl

end SExpr

/-- The literal for a value is read as this value, which is of the sort that the literal is for. -/
theorem Value.literal?_meaning {sort : FactSort} {v : Value} {literal : SExpr}
    {remark : Option String} (h : v.literal? sort = some (literal, remark)) (ν : Valuation) :
    (SExpr.read? literal.text).bind (SExpr.meaning? ν) = some v.meaning ∧
      literal ≠ .atom unknownSymbol ∧ sort.admits v.meaning = true := by
  cases v with
  | bool b =>
    cases sort with
    | bool =>
      cases h
      exact ⟨SExpr.read?_bool b, SExpr.bool_ne_unknown b, rfl⟩
    | real => cases h
    | int => cases h
  | int n =>
    cases sort with
    | int =>
      cases h
      exact ⟨SExpr.read?_int _, SExpr.int_ne_unknown _, rfl⟩
    | real =>
      cases h
      refine ⟨?_, SExpr.real_ne_unknown _, rfl⟩
      rw [SExpr.read?_real, Decimal.value_ofInt]
      rfl
    | bool => cases h
  | decimal d =>
    cases sort with
    | real =>
      cases h
      exact ⟨SExpr.read?_real d, SExpr.real_ne_unknown d, rfl⟩
    | int => cases h
    | bool => cases h
  | date d =>
    cases sort with
    | int =>
      cases h
      exact ⟨SExpr.read?_int _, SExpr.int_ne_unknown _, rfl⟩
    | real => cases h
    | bool => cases h

/-! ## The lines of a program -/

namespace Policy

variable {policy : Policy} {facts : FactSet} {program : Program} {ν : Valuation}

/-- The program has a line that binds each declared fact, and a line for each fact that has to be
known. -/
theorem program_lines (h : policy.program facts = .ok program) :
    (∀ d ∈ policy.facts, ∃ line ∈ program, d.binding facts = .ok line) ∧
      ∀ line ∈ policy.knownBindings facts, line ∈ program := by
  rw [Policy.program] at h
  obtain ⟨bindings, hbindings, h⟩ := exists_of_bind_eq_ok h
  cases h
  refine ⟨fun d hd => ?_, fun line hline => ?_⟩
  · obtain ⟨line, hline, hd⟩ := exists_of_mapM_eq_ok hbindings hd
    exact ⟨line, by simp [hline], hd⟩
  · simp [hline]

/-- A valuation that respects the program gives each declared fact a value of its sort, and each
known one its value. -/
theorem Respects.interprets (h : policy.Respects ν program)
    (hprogram : policy.program facts = .ok program) : policy.Interprets facts ν := by
  have hknown : ∀ {fact sort value}, policy.sortOf? fact = some sort →
      facts.get? fact = some value → ν fact = value.meaning ∧ sort.admits value.meaning = true := by
    intro fact sort value hsort hvalue
    obtain ⟨line, hline, hbinding⟩ := (program_lines hprogram).1 _ (exists_declaration hsort)
    obtain ⟨literal, remark, rfl, -, -, ⟨hnone, -⟩ | ⟨v, hv, hliteral⟩⟩ :=
      Declaration.exists_of_binding hbinding
    · rw [hvalue] at hnone
      cases hnone
    · obtain rfl : value = v := Option.some.inj (hvalue.symm.trans hv)
      obtain ⟨hread, hne, hadmits⟩ := Value.literal?_meaning hliteral ν
      have hν := (h _ _ _ hline).1 hne
      rw [hread, Option.some_inj] at hν
      exact ⟨hν.symm, hadmits⟩
  refine ⟨fun {fact sort} hsort => ?_, fun hsort hvalue => (hknown hsort hvalue).1⟩
  cases hvalue : facts.get? fact with
  | some value =>
    obtain ⟨hν, hadmits⟩ := hknown hsort hvalue
    rwa [hν]
  | none =>
    obtain ⟨line, hline, hbinding⟩ := (program_lines hprogram).1 _ (exists_declaration hsort)
    obtain ⟨literal, remark, rfl, -, -, ⟨-, rfl⟩ | ⟨v, hv, -⟩⟩ :=
      Declaration.exists_of_binding hbinding
    · exact (h _ _ _ hline).2 rfl sort hsort
    · rw [hvalue] at hv
      cases hv

theorem Respects.known (h : policy.Respects ν program)
    (hprogram : policy.program facts = .ok program) {fact : String}
    (hfact : fact ∈ policy.knownFacts) : ν (knownSymbol fact) = .truth (facts.isKnown fact) := by
  have hline := (program_lines hprogram).2 _ (List.mem_map_of_mem hfact)
  have hread := (h _ _ _ hline).1 (SExpr.bool_ne_unknown _)
  rw [SExpr.read?_bool, Option.some_inj] at hread
  exact hread.symm

/-! ## The valuations that respect a program -/

/-- The valuation that the facts give, with the given values for the symbols of unknown facts. -/
def valuation (policy : Policy) (facts : FactSet) (free : Valuation) : Valuation := fun symbol =>
  match policy.knownFacts.find? fun fact => knownSymbol fact == symbol with
  | some fact => .truth (facts.isKnown fact)
  | none => ((facts.get? symbol).map Value.meaning).getD (free symbol)

theorem knownSymbol_inj {fact fact' : String} :
    knownSymbol fact = knownSymbol fact' ↔ fact = fact' := by
  rw [knownSymbol, knownSymbol, ← String.toList_inj, String.toList_append, String.toList_append,
    List.append_cancel_left_eq, String.toList_inj]

theorem valuation_knownSymbol {fact : String} (h : fact ∈ policy.knownFacts) (free : Valuation) :
    policy.valuation facts free (knownSymbol fact) = .truth (facts.isKnown fact) := by
  have hfound : (policy.knownFacts.find? fun other => knownSymbol other == knownSymbol fact).isSome :=
    List.find?_isSome.mpr ⟨fact, h, beq_self_eq_true _⟩
  obtain ⟨other, hother⟩ := Option.isSome_iff_exists.mp hfound
  -- The search may stop at another name only if it has the same symbol.
  have hsame : knownSymbol other = knownSymbol fact := by simpa using List.find?_some hother
  simp only [valuation, hother]
  rw [knownSymbol_inj.mp hsame]

theorem valuation_fact {fact : String} (h : ∀ known ∈ policy.knownFacts, knownSymbol known ≠ fact)
    (free : Valuation) : policy.valuation facts free fact =
      ((facts.get? fact).map Value.meaning).getD (free fact) := by
  have hnone : (policy.knownFacts.find? fun known => knownSymbol known == fact) = none := by
    rw [List.find?_eq_none]
    intro known hknown
    simpa using h known hknown
  simp only [valuation, hnone]

/-- A binding of a program binds a declared fact, or says whether a fact is known. -/
theorem of_bind_mem (h : policy.program facts = .ok program) {symbol : String} {literal : SExpr}
    {remark : Option String} (hline : .bind symbol literal remark ∈ program) :
    (∃ d ∈ policy.facts, d.binding facts = .ok (.bind symbol literal remark)) ∨
      ∃ fact ∈ policy.knownFacts, symbol = knownSymbol fact ∧
        literal = .atom (toString (facts.isKnown fact)) := by
  rw [Policy.program] at h
  obtain ⟨bindings, hbindings, h⟩ := exists_of_bind_eq_ok h
  cases h
  simp only [declarations, knownBindings, invariantAssertion, actionLines, List.mem_cons,
    List.mem_append, List.mem_map, List.mem_flatMap, reduceCtorEq, and_false, exists_false,
    or_false, false_or, List.not_mem_nil, Statement.bind.injEq] at hline
  rcases hline with hline | ⟨fact, hfact, hsymbol, hliteral, -⟩
  · exact Or.inl (exists_of_mem_mapM hbindings hline)
  · exact Or.inr ⟨fact, hfact, hsymbol.symm, hliteral.symm⟩

/-- Whatever values of their sorts the unknown facts get, the facts give a valuation that respects
the program. -/
theorem respects_valuation (hwf : policy.WellFormed)
    (hfresh : ∀ d ∈ policy.facts, ∀ known ∈ policy.knownFacts, knownSymbol known ≠ d.fact)
    (hprogram : policy.program facts = .ok program) {free : Valuation}
    (hfree : ∀ d ∈ policy.facts, facts.get? d.fact = none → d.sort.admits (free d.fact) = true) :
    policy.Respects (policy.valuation facts free) program := by
  intro symbol literal remark hline
  rcases of_bind_mem hprogram hline with ⟨d, hd, hbinding⟩ | ⟨fact, hfact, rfl, rfl⟩
  · have hν : policy.valuation facts free d.fact =
        ((facts.get? d.fact).map Value.meaning).getD (free d.fact) :=
      valuation_fact (hfresh d hd) free
    obtain ⟨literal, remark, heq, -, -, hvalue⟩ := d.exists_of_binding hbinding
    cases heq
    rcases hvalue with ⟨hnone, rfl⟩ | ⟨value, hvalue, hliteral⟩
    · refine ⟨fun hne => absurd rfl hne, fun _ sort hsort => ?_⟩
      rw [sortOf?_of_mem hwf hd] at hsort
      cases hsort
      rw [hν, hnone]
      exact hfree d hd hnone
    · obtain ⟨hread, hne, -⟩ := Value.literal?_meaning hliteral (policy.valuation facts free)
      rw [hν, hvalue]
      exact ⟨fun _ => hread, fun hunknown => absurd hunknown hne⟩
  · rw [valuation_knownSymbol hfact]
    exact ⟨fun _ => SExpr.read?_bool _, fun hunknown => absurd hunknown (SExpr.bool_ne_unknown _)⟩

end Policy

end Verdict
