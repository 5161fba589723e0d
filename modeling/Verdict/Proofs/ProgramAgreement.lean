import Verdict.Proofs.Acceptance
import Verdict.Proofs.DateOrder
import Verdict.Proofs.Evaluation
import Verdict.Proofs.ProgramValuation
import Verdict.Proofs.RecordProgram
import Verdict.Proofs.RoundedProduct

/-!
# Evaluation and proof program agree

A predicate of a well-formed policy is written as an expression with a truth value, whatever the
valuation. Where the predicate evaluates to a truth value and no product on the way is rounded, the
expression has this truth value: the operands that the evaluation does not reach do not count for
the connectives either.
-/

namespace Verdict

/-! ## Products on the way -/

/-- The factors of the product that the evaluation of a term makes, if it makes one. -/
def Term.products (facts : FactSet) : Term → List (Decimal × Decimal)
  | .scaled name factor =>
    match (facts.get? name).map Value.asDecimal with
    | some (.ok base) => [(base, factor)]
    | _ => []
  | _ => []

namespace Predicate

mutual

/-- The factors of all products that the evaluation makes. Operands that it does not reach make
none. -/
def products (facts : FactSet) : Predicate → List (Decimal × Decimal)
  | compare left _ right =>
    left.products facts ++ if (left.eval facts).result.isOk then right.products facts else []
  | flag _ => []
  | not operand => operand.products facts
  | all operands => productsAll facts operands
  | any operands => productsAny facts operands
  | implies premise conclusion =>
    premise.products facts ++ if premise.holds facts then conclusion.products facts else []
  | known _ => []
  | notIn _ _ => []

/-- The products of a conjunction, up to the first operand that does not hold. -/
def productsAll (facts : FactSet) : List Predicate → List (Decimal × Decimal)
  | [] => []
  | p :: rest => p.products facts ++ if p.holds facts then productsAll facts rest else []

/-- The products of a disjunction, up to the first operand that does not fail. -/
def productsAny (facts : FactSet) : List Predicate → List (Decimal × Decimal)
  | [] => []
  | p :: rest =>
    p.products facts ++ if p.holds facts || p.faults facts then [] else productsAny facts rest

end

end Predicate

/-- The product of each pair of factors is the value of a decimal. -/
def AllExact (factors : List (Decimal × Decimal)) : Prop :=
  ∀ pair ∈ factors, Decimal.IsExact (pair.1.value * pair.2.value)

theorem AllExact.left {factors factors' : List (Decimal × Decimal)}
    (h : AllExact (factors ++ factors')) : AllExact factors :=
  fun pair hpair => h pair (List.mem_append_left _ hpair)

theorem AllExact.right {factors factors' : List (Decimal × Decimal)}
    (h : AllExact (factors ++ factors')) : AllExact factors' :=
  fun pair hpair => h pair (List.mem_append_right _ hpair)

theorem AllExact.of_fits {factors : List (Decimal × Decimal)}
    (h : ∀ pair ∈ factors, pair.1.coefficient * pair.2.coefficient < 2 ^ 96 ∧
      pair.1.scale + pair.2.scale ≤ 28) : AllExact factors :=
  fun pair hpair => Decimal.isExact_of_fits (h pair hpair).1 (h pair hpair).2

/-! ## Values and their meanings -/

namespace Value

theorem meaning_of_asDecimal {v : Value} {d : Decimal} (h : v.asDecimal = .ok d) :
    v.meaning = .number d.value := by
  cases v with
  | decimal d' =>
    cases h
    rfl
  | int n =>
    cases h
    rw [Decimal.value_ofInt]
    rfl
  | bool b => cases h
  | date d' => cases h

theorem meaning_of_asInt {v : Value} {n : ℤ} (h : v.asInt = .ok n) : v.meaning = .number n := by
  cases v with
  | int m =>
    cases h
    rfl
  | date d =>
    cases h
    rfl
  | bool b => cases h
  | decimal d => cases h

theorem relates_of_compare {v w : Value} {x y : ℚ} {c : Comparison} {b : Bool}
    (hv : v.meaning = .number x) (hw : w.meaning = .number y) (h : v.compare c w = .ok b) :
    c.relates x y = b := by
  have hmixed : ∀ {d e : Decimal}, v.asDecimal = .ok d → w.asDecimal = .ok e →
      c.holds (d.order e) = b → c.relates x y = b := by
    intro d e hd he hb
    rw [meaning_of_asDecimal hd, Meaning.number.injEq] at hv
    rw [meaning_of_asDecimal he, Meaning.number.injEq] at hw
    rw [← hb, Decimal.holds_order, hv, hw]
  cases v with
  | bool a => cases hv
  | int n =>
    cases w with
    | bool a => cases hw
    | int m =>
      cases hv
      cases hw
      cases h
      rw [Comparison.holds_compare, ← Comparison.relates_map (Int.cast_strictMono (R := ℚ))]
    | decimal e =>
      cases h
      exact hmixed rfl rfl rfl
    | date e => cases h
  | decimal d =>
    cases w with
    | bool a => cases hw
    | int m =>
      cases h
      exact hmixed rfl rfl rfl
    | decimal e =>
      cases h
      exact hmixed rfl rfl rfl
    | date e => cases h
  | date d =>
    cases w with
    | bool a => cases hw
    | int m => cases h
    | decimal e => cases h
    | date e =>
      cases hv
      cases hw
      cases h
      rw [Date.holds_order, ← Comparison.relates_map (Int.cast_strictMono (R := ℚ))]

theorem eq_bool_of_meaning {v : Value} {b : Bool} (h : v.meaning = .truth b) : v = .bool b := by
  cases v with
  | bool a =>
    cases h
    rfl
  | int n => cases h
  | decimal d => cases h
  | date d => cases h

end Value

/-! ## Terms and comparisons -/

namespace Policy

variable {policy : Policy} {facts : FactSet} {ν : Valuation}

theorem meaning_fact (hwf : policy.WellFormed) {fact : String} {sort : FactSort}
    (h : policy.sortOf? fact = some sort) : SExpr.meaning? ν (.atom fact) = some (ν fact) :=
  SExpr.atomMeaning?_of_isPlainSymbol (isPlainSymbol_of_sortOf? hwf h)

/-- A declared number stands for a number, which is that of its value if it is known. -/
theorem Interprets.number (h : policy.Interprets facts ν) {fact : String} {sort : FactSort}
    (hsort : policy.sortOf? fact = some sort) (hne : sort ≠ .bool) :
    ∃ x, ν fact = .number x ∧ ∀ v, facts.get? fact = some v → v.meaning = .number x := by
  have hadmits := h.sort hsort
  cases hν : ν fact with
  | number x => exact ⟨x, rfl, fun v hv => (h.value hsort hv).symm.trans hν⟩
  | truth b =>
    rw [hν] at hadmits
    cases sort with
    | bool => exact absurd rfl hne
    | real => cases hadmits
    | int => cases hadmits

/-- A declared truth value stands for one, which is its value if it is known. -/
theorem Interprets.truth (h : policy.Interprets facts ν) {fact : String}
    (hsort : policy.sortOf? fact = some .bool) :
    ∃ b, ν fact = .truth b ∧ ∀ v, facts.get? fact = some v → v = .bool b := by
  have hadmits := h.sort hsort
  cases hν : ν fact with
  | number x =>
    rw [hν] at hadmits
    cases hadmits
  | truth b =>
    exact ⟨b, rfl, fun v hv => Value.eq_bool_of_meaning ((h.value hsort hv).symm.trans hν)⟩

/-- A term stands for a number, and for the number that it evaluates to, unless that was rounded. -/
theorem meaning_termExpr (hwf : policy.WellFormed) (h : policy.Interprets facts ν) {t : Term}
    (ht : policy.isNumeric t = true) :
    ∃ x, (∀ real, SExpr.meaning? ν (termExpr real t) = some (.number x)) ∧
      ∀ v, (t.eval facts).result = .ok v → AllExact (t.products facts) →
        v.meaning = .number x := by
  cases t with
  | fact name =>
    obtain ⟨sort, hsort, hne⟩ := exists_sortOf? ht
    obtain ⟨x, hx, hvalue⟩ := h.number hsort hne
    refine ⟨x, fun real => ?_, fun v hv _ => hvalue v (Reading.get?_of_ofFact hv)⟩
    rw [termExpr, meaning_fact hwf hsort, hx]
  | int n =>
    refine ⟨n.toInt, fun real => ?_, fun v hv _ => ?_⟩
    · cases real <;> simp [termExpr]
    · cases hv
      rfl
  | decimal d =>
    refine ⟨d.value, fun _ => SExpr.meaning?_real d, fun v hv _ => ?_⟩
    cases hv
    rfl
  | scaled name factor =>
    obtain ⟨sort, hsort, hne⟩ := exists_sortOf? ht
    obtain ⟨x, hx, hvalue⟩ := h.number hsort hne
    refine ⟨x * factor.value, fun _ => ?_, fun v hv hexact => ?_⟩
    · have hfact : SExpr.meaning? ν (.atom name) = some (.number x) := by
        rw [meaning_fact hwf hsort, hx]
      exact SExpr.meaning?_apply "*" (SExpr.meanings?_two hfact (SExpr.meaning?_real factor))
    · rw [Term.eval, Reading.result_bind_eq_ok] at hv
      obtain ⟨base, hbase, hv⟩ := hv
      have hget := Reading.get?_of_ofFact hbase
      obtain ⟨d, hd, hv⟩ := exists_of_bind_eq_ok hv
      have hdx : d.value = x := by
        have hmeaning := hvalue base hget
        rw [Value.meaning_of_asDecimal hd] at hmeaning
        exact Meaning.number.inj hmeaning
      obtain ⟨product, hproduct, hvalue⟩ := Decimal.mul?_of_isExact
        (hexact (d, factor) (by simp [Term.products, hget, hd]))
      simp only [hproduct] at hv
      cases hv
      rw [Value.meaning, hvalue, hdx]

theorem meaning_comparisonExpr {left right : Term} (c : Comparison) {x y : ℚ}
    (hleft : ∀ real, SExpr.meaning? ν (termExpr real left) = some (.number x))
    (hright : ∀ real, SExpr.meaning? ν (termExpr real right) = some (.number y)) :
    SExpr.meaning? ν (policy.comparisonExpr left c right) = some (.truth (c.relates x y)) := by
  -- An inequality is written as the negation of an equality, all others with their own sign.
  have hsymbol : ∀ c : Comparison, c ≠ .ne →
      SExpr.meaning? ν (policy.comparisonExpr left c right) = some (.truth (c.relates x y)) := by
    intro c hc
    obtain ⟨real, hreal⟩ := policy.exists_comparisonExpr left right hc
    rw [hreal, SExpr.meaning?_apply c.symbol (SExpr.meanings?_two (hleft real) (hright real)),
      Meaning.operate?_symbol hc]
  by_cases hc : c = .ne
  · rw [hc, comparisonExpr_ne,
      SExpr.meaning?_apply "not" (SExpr.meanings?_one (hsymbol .eq (by decide)))]
    simp [Meaning.operate?, Comparison.relates]
  · exact hsymbol c hc

theorem meaning_comparesTruths (hwf : policy.WellFormed) (h : policy.Interprets facts ν)
    {left right : Term} {c : Comparison} (ht : policy.comparesTruths left c right = true) :
    ∃ t, SExpr.meaning? ν (policy.comparisonExpr left c right) = some (.truth t) ∧
      ∀ b, ((Predicate.compare left c right).eval facts).result = .ok b → t = b := by
  obtain ⟨fact, fact', rfl, rfl, hc, hsort, hsort'⟩ := exists_of_comparesTruths ht
  obtain ⟨a, ha, hvalue⟩ := h.truth hsort
  obtain ⟨a', ha', hvalue'⟩ := h.truth hsort'
  have heq : SExpr.meaning? ν (policy.comparisonExpr (.fact fact) .eq (.fact fact')) =
      some (.truth (a == a')) := by
    have hleft : SExpr.meaning? ν (.atom fact) = some (.truth a) := by
      rw [meaning_fact hwf hsort, ha]
    have hright : SExpr.meaning? ν (.atom fact') = some (.truth a') := by
      rw [meaning_fact hwf hsort', ha']
    exact SExpr.meaning?_apply "=" (SExpr.meanings?_two hleft hright)
  have heval : ∀ b, ((Predicate.compare (.fact fact) c (.fact fact')).eval facts).result = .ok b →
      (Value.bool a).compare c (.bool a') = .ok b := by
    intro b hb
    rw [Predicate.eval, Reading.result_bind_eq_ok] at hb
    obtain ⟨v, hv, hb⟩ := hb
    rw [Reading.result_bind_eq_ok] at hb
    obtain ⟨w, hw, hb⟩ := hb
    rw [hvalue v (Reading.get?_of_ofFact hv), hvalue' w (Reading.get?_of_ofFact hw)] at hb
    exact hb
  rcases hc with rfl | rfl
  · refine ⟨a == a', heq, fun b hb => ?_⟩
    exact Except.ok.inj (heval b hb)
  · refine ⟨!(a == a'), ?_, fun b hb => ?_⟩
    · rw [comparisonExpr_ne, SExpr.meaning?_apply "not" (SExpr.meanings?_one heq)]
      rfl
    · exact Except.ok.inj (heval b hb)

/-! ## Predicates -/

/-- The expression for a predicate stands for a truth value, which is the one that the predicate
evaluates to, unless a product on the way is rounded. -/
def Agrees (policy : Policy) (facts : FactSet) (ν : Valuation) (p : Predicate) : Prop :=
  ∃ t, SExpr.meaning? ν (policy.expr p) = some (.truth t) ∧
    ∀ b, (p.eval facts).result = .ok b → AllExact (p.products facts) → t = b

theorem agrees_compare (hwf : policy.WellFormed) (h : policy.Interprets facts ν)
    {left right : Term} {c : Comparison}
    (hsorted : policy.wellSorted (.compare left c right) = true) :
    policy.Agrees facts ν (.compare left c right) := by
  simp only [wellSorted, Bool.or_eq_true, Bool.and_eq_true] at hsorted
  rcases hsorted with ⟨hleft, hright⟩ | htruths
  · obtain ⟨x, hx, hvalue⟩ := meaning_termExpr hwf h hleft
    obtain ⟨y, hy, hvalue'⟩ := meaning_termExpr hwf h hright
    refine ⟨c.relates x y, meaning_comparisonExpr c hx hy, fun b hb hexact => ?_⟩
    rw [Predicate.eval, Reading.result_bind_eq_ok] at hb
    obtain ⟨v, hv, hb⟩ := hb
    rw [Reading.result_bind_eq_ok] at hb
    obtain ⟨w, hw, hb⟩ := hb
    rw [Predicate.products, hv] at hexact
    exact Value.relates_of_compare (hvalue v hv hexact.left) (hvalue' w hw hexact.right) hb
  · obtain ⟨t, ht, hvalue⟩ := meaning_comparesTruths hwf h htruths
    exact ⟨t, ht, fun b hb _ => hvalue b hb⟩

theorem agrees_flag (hwf : policy.WellFormed) (h : policy.Interprets facts ν) {fact : String}
    (hsorted : policy.wellSorted (.flag fact) = true) : policy.Agrees facts ν (.flag fact) := by
  have hsort : policy.sortOf? fact = some .bool := by simpa [wellSorted] using hsorted
  obtain ⟨t, ht, hvalue⟩ := h.truth hsort
  refine ⟨t, ?_, fun b hb _ => ?_⟩
  · rw [expr, meaning_fact hwf hsort, ht]
  · rw [Predicate.eval, Reading.result_bind_eq_ok] at hb
    obtain ⟨v, hv, hb⟩ := hb
    rw [hvalue v (Reading.get?_of_ofFact hv)] at hb
    exact Except.ok.inj hb

theorem agrees_not {operand : Predicate} (ih : policy.Agrees facts ν operand) :
    policy.Agrees facts ν (.not operand) := by
  obtain ⟨t, ht, hvalue⟩ := ih
  refine ⟨!t, ?_, fun b hb hexact => ?_⟩
  · rw [expr, SExpr.meaning?_apply "not" (SExpr.meanings?_one ht)]
    rfl
  · rw [Predicate.eval, Reading.result_bind_eq_ok] at hb
    obtain ⟨a, ha, hb⟩ := hb
    cases hb
    rw [hvalue a ha hexact]

/-- A premise that fails makes the implication hold, whatever the conclusion. -/
theorem agrees_implies {premise conclusion : Predicate} (ihp : policy.Agrees facts ν premise)
    (ihc : policy.Agrees facts ν conclusion) :
    policy.Agrees facts ν (.implies premise conclusion) := by
  obtain ⟨t, ht, hvalue⟩ := ihp
  obtain ⟨t', ht', hvalue'⟩ := ihc
  refine ⟨!t || t', ?_, fun b hb hexact => ?_⟩
  · rw [expr, SExpr.meaning?_apply "=>" (SExpr.meanings?_two ht ht')]
    rfl
  · rw [Predicate.eval, Reading.result_bind_eq_ok] at hb
    obtain ⟨a, ha, hb⟩ := hb
    rw [Predicate.products] at hexact
    rw [hvalue a ha hexact.left]
    cases a with
    | false =>
      cases hb
      rfl
    | true =>
      rw [if_pos rfl] at hb
      rw [if_pos (Predicate.holds_iff.mpr ha)] at hexact
      rw [hvalue' b hb hexact.right]
      rfl

/-- The operands of a conjunction up to the first that fails decide it. -/
theorem exists_truths_all {operands : List Predicate}
    (ih : ∀ p ∈ operands, policy.Agrees facts ν p) :
    ∃ ts : List Bool,
      List.Forall₂ (fun e t => SExpr.meaning? ν e = some (.truth t)) (policy.exprs operands) ts ∧
        ∀ b, (Predicate.evalAll facts operands).result = .ok b →
          AllExact (Predicate.productsAll facts operands) → (ts.all fun t => t) = b := by
  induction operands with
  | nil =>
    refine ⟨[], .nil, fun b hb _ => ?_⟩
    cases hb
    rfl
  | cons p rest ihrest =>
    obtain ⟨t, ht, hp⟩ := ih p List.mem_cons_self
    obtain ⟨ts, hts, hrest⟩ := ihrest fun q hq => ih q (List.mem_cons_of_mem p hq)
    refine ⟨t :: ts, .cons ht hts, fun b hb hexact => ?_⟩
    rw [Predicate.evalAll, Reading.result_bind_eq_ok] at hb
    obtain ⟨a, ha, hb⟩ := hb
    rw [Predicate.productsAll] at hexact
    rw [List.all_cons, hp a ha hexact.left]
    -- After an operand that fails, nothing is known of the others but that they are truth values.
    cases a with
    | false =>
      cases hb
      rfl
    | true =>
      rw [if_pos rfl] at hb
      rw [if_pos (Predicate.holds_iff.mpr ha)] at hexact
      exact hrest b hb hexact.right

theorem agrees_all {operands : List Predicate} (ih : ∀ p ∈ operands, policy.Agrees facts ν p) :
    policy.Agrees facts ν (.all operands) := by
  obtain ⟨ts, hts, hvalue⟩ := exists_truths_all ih
  refine ⟨ts.all fun t => t, ?_, fun b hb hexact => ?_⟩
  · rw [expr]
    exact SExpr.meaning?_join_and hts
  · rw [Predicate.eval] at hb
    rw [Predicate.products] at hexact
    exact hvalue b hb hexact

/-- The operands of a disjunction up to the first that holds decide it. -/
theorem exists_truths_any {operands : List Predicate}
    (ih : ∀ p ∈ operands, policy.Agrees facts ν p) :
    ∃ ts : List Bool,
      List.Forall₂ (fun e t => SExpr.meaning? ν e = some (.truth t)) (policy.exprs operands) ts ∧
        ∀ b, (Predicate.evalAny facts operands).result = .ok b →
          AllExact (Predicate.productsAny facts operands) → (ts.any fun t => t) = b := by
  induction operands with
  | nil =>
    refine ⟨[], .nil, fun b hb _ => ?_⟩
    cases hb
    rfl
  | cons p rest ihrest =>
    obtain ⟨t, ht, hp⟩ := ih p List.mem_cons_self
    obtain ⟨ts, hts, hrest⟩ := ihrest fun q hq => ih q (List.mem_cons_of_mem p hq)
    refine ⟨t :: ts, .cons ht hts, fun b hb hexact => ?_⟩
    rw [Predicate.evalAny, Reading.result_bind_eq_ok] at hb
    obtain ⟨a, ha, hb⟩ := hb
    rw [Predicate.productsAny] at hexact
    rw [List.any_cons, hp a ha hexact.left]
    cases a with
    | true =>
      cases hb
      rfl
    | false =>
      have hholds : p.holds facts = false := by rw [Predicate.holds, ha]
      have hfaults : p.faults facts = false := by rw [Predicate.faults, ha]
      rw [if_neg Bool.false_ne_true] at hb
      rw [hholds, hfaults, if_neg (by decide)] at hexact
      exact hrest b hb hexact.right

theorem agrees_any {operands : List Predicate} (ih : ∀ p ∈ operands, policy.Agrees facts ν p) :
    policy.Agrees facts ν (.any operands) := by
  obtain ⟨ts, hts, hvalue⟩ := exists_truths_any ih
  refine ⟨ts.any fun t => t, ?_, fun b hb hexact => ?_⟩
  · rw [expr]
    exact SExpr.meaning?_join_or hts
  · rw [Predicate.eval] at hb
    rw [Predicate.products] at hexact
    exact hvalue b hb hexact

theorem agrees_known {names : List String}
    (hplain : ∀ fact ∈ names, isPlainSymbol (knownSymbol fact) = true)
    (hknown : ∀ fact ∈ names, ν (knownSymbol fact) = .truth (facts.isKnown fact)) :
    policy.Agrees facts ν (.known names) := by
  have hsymbols : List.Forall₂ (fun e t => SExpr.meaning? ν e = some (.truth t))
      (names.map fun fact => .atom (knownSymbol fact)) (names.map facts.isKnown) := by
    rw [List.forall₂_map_left_iff, List.forall₂_map_right_iff, List.forall₂_same]
    intro fact hfact
    rw [SExpr.atomMeaning?_of_isPlainSymbol (hplain fact hfact), hknown fact hfact]
  refine ⟨(names.map facts.isKnown).all fun t => t, ?_, fun b hb _ => ?_⟩
  · rw [expr]
    exact SExpr.meaning?_join_and hsymbols
  · cases hb
    simp [Function.comp_def]

theorem agrees_notIn (hwf : policy.WellFormed) (h : policy.Interprets facts ν) {fact : String}
    {excluded : List Int64} (hsorted : policy.wellSorted (.notIn fact excluded) = true) :
    policy.Agrees facts ν (.notIn fact excluded) := by
  have hsort : policy.sortOf? fact = some .int := by simpa [wellSorted] using hsorted
  obtain ⟨x, hx, hvalue⟩ := h.number hsort (by decide)
  have hequations : List.Forall₂ (fun e t => SExpr.meaning? ν e = some (.truth t))
      (excluded.map fun n => .apply "=" [.atom fact, .int n.toInt])
      (excluded.map fun n => decide (x = n.toInt)) := by
    rw [List.forall₂_map_left_iff, List.forall₂_map_right_iff, List.forall₂_same]
    intro n _
    have hfact : SExpr.meaning? ν (.atom fact) = some (.number x) := by
      rw [meaning_fact hwf hsort, hx]
    exact SExpr.meaning?_apply "=" (SExpr.meanings?_two hfact (SExpr.meaning?_int n.toInt))
  refine ⟨!((excluded.map fun n => decide (x = n.toInt)).any fun t => t), ?_, fun b hb _ => ?_⟩
  · rw [expr, SExpr.meaning?_apply "not"
      (SExpr.meanings?_one (SExpr.meaning?_join_or hequations))]
    rfl
  · rw [Predicate.eval, Reading.result_bind_eq_ok] at hb
    obtain ⟨v, hv, hb⟩ := hb
    rw [Reading.result_bind_eq_ok] at hb
    obtain ⟨n, hn, hb⟩ := hb
    have hxn : x = n := by
      have hmeaning := hvalue v (Reading.get?_of_ofFact hv)
      rw [Value.meaning_of_asInt hn] at hmeaning
      exact (Meaning.number.inj hmeaning).symm
    cases hb
    simp only [hxn, List.any_map, List.contains_eq_any_beq, Function.comp_def, Int.cast_inj]
    rfl

/-- Every well-sorted predicate agrees with its expression. -/
theorem agrees_of_wellSorted (hwf : policy.WellFormed) (h : policy.Interprets facts ν)
    {p : Predicate} (hsorted : policy.wellSorted p = true)
    (hknown : ∀ fact ∈ p.knownMentions, ν (knownSymbol fact) = .truth (facts.isKnown fact)) :
    policy.Agrees facts ν p := by
  induction p with
  | compare left c right => exact agrees_compare hwf h hsorted
  | flag fact => exact agrees_flag hwf h hsorted
  | not operand ih =>
    rw [wellSorted] at hsorted
    rw [Predicate.knownMentions] at hknown
    exact agrees_not (ih hsorted hknown)
  | all operands ih =>
    rw [wellSorted] at hsorted
    rw [Predicate.knownMentions] at hknown
    exact agrees_all fun p hp => ih p hp (wellSorted_of_mem hsorted hp) fun fact hfact =>
      hknown fact (Predicate.mem_knownMentionsOf.mpr ⟨p, hp, hfact⟩)
  | any operands ih =>
    rw [wellSorted] at hsorted
    rw [Predicate.knownMentions] at hknown
    exact agrees_any fun p hp => ih p hp (wellSorted_of_mem hsorted hp) fun fact hfact =>
      hknown fact (Predicate.mem_knownMentionsOf.mpr ⟨p, hp, hfact⟩)
  | implies premise conclusion ihp ihc =>
    rw [wellSorted, Bool.and_eq_true] at hsorted
    rw [Predicate.knownMentions] at hknown
    exact agrees_implies (ihp hsorted.1 fun fact hfact => hknown fact (List.mem_append_left _ hfact))
      (ihc hsorted.2 fun fact hfact => hknown fact (List.mem_append_right _ hfact))
  | known names =>
    rw [wellSorted, List.all_eq_true] at hsorted
    exact agrees_known (fun fact hfact => SExpr.isPlainSymbol_knownSymbol
      (isPlainSymbol_of_declares hwf (hsorted fact hfact))) hknown
  | notIn fact excluded => exact agrees_notIn hwf h hsorted

end Policy

/-- In the proof program of a well-formed policy every invariant and every guard is written so that
it means what it evaluates to. The symbols may have any values that the bindings allow, and all
products that the evaluation makes have to be exact. -/
theorem read?_expr_of_eval {policy : Policy} (hwf : policy.WellFormed) {facts : FactSet}
    {program : Program} (hprogram : policy.program facts = .ok program) {clause : Clause}
    (hclause : clause ∈ policy.invariants ++ policy.actions) {b : Bool}
    (heval : (clause.condition.eval facts).result = .ok b)
    (hexact : AllExact (clause.condition.products facts)) {ν : Valuation}
    (hν : policy.Respects ν program) :
    (SExpr.read? (policy.expr clause.condition).text).bind (SExpr.meaning? ν) =
      some (.truth b) := by
  have hsorted := hwf.sorted clause hclause
  have hknown : ∀ fact ∈ clause.condition.knownMentions,
      ν (knownSymbol fact) = .truth (facts.isKnown fact) := by
    intro fact hfact
    refine hν.known hprogram ?_
    rw [Policy.knownFacts, Names.mem_distinct, List.mem_flatMap]
    exact ⟨clause, hclause, hfact⟩
  obtain ⟨t, ht, hvalue⟩ :=
    Policy.agrees_of_wellSorted hwf (hν.interprets hprogram) hsorted hknown
  rw [← hvalue b heval hexact]
  exact (Policy.isPlain_expr hwf hsorted).read?_meaning ht

/-- An increase of an unknown credit line: 300 are requested, with an income of 1000.50. -/
def requestedIncrease : FactRecord :=
  .creditLineIncrease ⟨some (.ofInt 300), none, Decimal.ofParts? false 100050 2, some 12, some false⟩

/-- The invariant on the share of the income. -/
def withinIncomeRatio : Clause :=
  Policy.creditLineIncrease.invariants.get ⟨2, by decide⟩

/-- The line that is not known may be any number, here 5. -/
theorem read?_expr_of_eval_withinIncomeRatio :
    (SExpr.read? (Policy.creditLineIncrease.expr withinIncomeRatio.condition).text).bind
      (SExpr.meaning? (Policy.creditLineIncrease.valuation requestedIncrease.known
        fun _ => .number 5)) = some (.truth true) := by
  have hwf : Policy.creditLineIncrease.WellFormed := Domain.creditLineIncrease.wellFormed_policy
  obtain ⟨program, hprogram⟩ := requestedIncrease.exists_program
  have hclause : withinIncomeRatio ∈
      Policy.creditLineIncrease.invariants ++ Policy.creditLineIncrease.actions :=
    List.mem_append_left _ (List.get_mem _ _)
  exact read?_expr_of_eval hwf hprogram hclause rfl (.of_fits (by decide +kernel))
    (Policy.respects_valuation hwf (by decide) hprogram (by decide +kernel))

end Verdict
