import Verdict.Policy.Standard
import Verdict.Proofs.ExpressionAtoms
import Verdict.Proofs.RecordLookup

/-!
# Well-formed policies

In a well-formed policy the facts have distinct plain symbols as their names, and each predicate
reads only declared facts, of sorts that suit it. So a comparison is one of numbers or one of truth
values, and every expression of its proof program has words as its atoms. The policies in force are
well formed.
-/

namespace Verdict

namespace Policy

/-- The fact is a number. -/
def isNumericFact (policy : Policy) (fact : String) : Bool :=
  policy.sortOf? fact == some .real || policy.sortOf? fact == some .int

/-- The term is a number. -/
def isNumeric (policy : Policy) : Term → Bool
  | .fact name => policy.isNumericFact name
  | .int _ => true
  | .decimal _ => true
  | .scaled name _ => policy.isNumericFact name

/-- Two truth values are compared for being the same or not. -/
def comparesTruths (policy : Policy) : Term → Comparison → Term → Bool
  | .fact left, .eq, .fact right
  | .fact left, .ne, .fact right =>
    policy.sortOf? left == some .bool && policy.sortOf? right == some .bool
  | _, _, _ => false

mutual

/-- Every part of the predicate reads declared facts of a suitable sort. -/
def wellSorted (policy : Policy) : Predicate → Bool
  | .compare left c right =>
    (policy.isNumeric left && policy.isNumeric right) || policy.comparesTruths left c right
  | .flag fact => policy.sortOf? fact == some .bool
  | .not operand => policy.wellSorted operand
  | .all operands => policy.wellSortedAll operands
  | .any operands => policy.wellSortedAll operands
  | .implies premise conclusion => policy.wellSorted premise && policy.wellSorted conclusion
  | .known facts => facts.all policy.declares
  | .notIn fact _ => policy.sortOf? fact == some .int

/-- Several predicates, each of them well sorted. -/
def wellSortedAll (policy : Policy) : List Predicate → Bool
  | [] => true
  | p :: rest => policy.wellSorted p && policy.wellSortedAll rest

end

/-- The facts of the policy have distinct plain symbols as their names, and its predicates are well
sorted. -/
structure WellFormed (policy : Policy) : Prop where
  distinct : (policy.facts.map (·.fact)).Nodup
  plain : ∀ d ∈ policy.facts, isPlainSymbol d.fact = true
  sorted : ∀ clause ∈ policy.invariants ++ policy.actions, policy.wellSorted clause.condition = true

variable {policy : Policy}

theorem exists_declaration {policy : Policy} {fact : String} {sort : FactSort}
    (h : policy.sortOf? fact = some sort) : ⟨fact, sort⟩ ∈ policy.facts := by
  obtain ⟨d, hd, rfl⟩ := Option.map_eq_some_iff.mp h
  have hfact : d.fact = fact := by simpa using List.find?_some hd
  rw [← hfact]
  exact List.mem_of_find?_eq_some hd

/-- As the names are distinct, a declaration is found by its name. -/
theorem sortOf?_of_mem (hwf : policy.WellFormed) {d : Declaration} (hd : d ∈ policy.facts) :
    policy.sortOf? d.fact = some d.sort := by
  rw [sortOf?, Keyed.find?_of_nodup hwf.distinct hd]
  rfl

theorem isPlainSymbol_of_sortOf? (hwf : policy.WellFormed) {fact : String} {sort : FactSort}
    (h : policy.sortOf? fact = some sort) : isPlainSymbol fact = true :=
  hwf.plain ⟨fact, sort⟩ (exists_declaration h)

theorem isPlainSymbol_of_declares (hwf : policy.WellFormed) {fact : String}
    (h : policy.declares fact = true) : isPlainSymbol fact = true := by
  obtain ⟨d, hd, hfact⟩ := List.any_eq_true.mp h
  rw [← beq_iff_eq.mp hfact]
  exact hwf.plain d hd

theorem exists_sortOf? {fact : String} (h : policy.isNumericFact fact = true) :
    ∃ sort, policy.sortOf? fact = some sort ∧ sort ≠ .bool := by
  simp only [isNumericFact, Bool.or_eq_true, beq_iff_eq] at h
  rcases h with h | h
  · exact ⟨.real, h, by decide⟩
  · exact ⟨.int, h, by decide⟩

theorem exists_of_comparesTruths {left right : Term} {c : Comparison}
    (h : policy.comparesTruths left c right = true) :
    ∃ fact fact', left = .fact fact ∧ right = .fact fact' ∧ (c = .eq ∨ c = .ne) ∧
      policy.sortOf? fact = some .bool ∧ policy.sortOf? fact' = some .bool := by
  unfold comparesTruths at h
  split at h
  · simp only [Bool.and_eq_true, beq_iff_eq] at h
    exact ⟨_, _, rfl, rfl, Or.inl rfl, h⟩
  · simp only [Bool.and_eq_true, beq_iff_eq] at h
    exact ⟨_, _, rfl, rfl, Or.inr rfl, h⟩
  · cases h

theorem wellSorted_of_mem {operands : List Predicate} (h : policy.wellSortedAll operands = true)
    {p : Predicate} (hp : p ∈ operands) : policy.wellSorted p = true := by
  induction operands with
  | nil => exact absurd hp List.not_mem_nil
  | cons q rest ih =>
    rw [wellSortedAll, Bool.and_eq_true] at h
    rcases List.mem_cons.mp hp with rfl | hp
    · exact h.1
    · exact ih h.2 hp

/-! ## Plain text -/

theorem declares_of_sortOf? {fact : String} {sort : FactSort} (h : policy.sortOf? fact = some sort) :
    policy.declares fact = true :=
  List.any_eq_true.mpr ⟨⟨fact, sort⟩, exists_declaration h, beq_self_eq_true fact⟩

theorem declares_of_isNumeric {t : Term} (h : policy.isNumeric t = true) :
    ∀ fact ∈ t.fact?.toList, policy.declares fact = true := by
  have hnumeric : ∀ {name : String}, policy.isNumericFact name = true →
      ∀ fact ∈ [name], policy.declares fact = true := by
    intro name h
    obtain ⟨sort, hsort, -⟩ := exists_sortOf? h
    exact List.forall_mem_singleton.mpr (declares_of_sortOf? hsort)
  cases t with
  | fact name => exact hnumeric h
  | int n => exact nofun
  | decimal d => exact nofun
  | scaled name factor => exact hnumeric h

/-- A well-sorted predicate mentions declared facts only. -/
theorem declares_of_mem_mentions {p : Predicate} (hsorted : policy.wellSorted p = true) :
    ∀ fact ∈ p.mentions, policy.declares fact = true := by
  have hoperands : ∀ {operands : List Predicate}, policy.wellSortedAll operands = true →
      (∀ p ∈ operands, policy.wellSorted p = true → ∀ fact ∈ p.mentions,
        policy.declares fact = true) →
      ∀ fact ∈ Predicate.mentionsOf operands, policy.declares fact = true := by
    intro operands hall ih fact hfact
    obtain ⟨p, hp, hfact⟩ := Predicate.mem_mentionsOf.mp hfact
    exact ih p hp (wellSorted_of_mem hall hp) fact hfact
  induction p with
  | compare left c right =>
    simp only [wellSorted, Bool.or_eq_true, Bool.and_eq_true] at hsorted
    rcases hsorted with ⟨hleft, hright⟩ | htruths
    · exact List.forall_mem_append.mpr ⟨declares_of_isNumeric hleft, declares_of_isNumeric hright⟩
    · obtain ⟨fact, fact', rfl, rfl, -, hsort, hsort'⟩ := exists_of_comparesTruths htruths
      exact List.forall_mem_append.mpr ⟨List.forall_mem_singleton.mpr (declares_of_sortOf? hsort),
        List.forall_mem_singleton.mpr (declares_of_sortOf? hsort')⟩
  | flag fact =>
    have hsort : policy.sortOf? fact = some .bool := by simpa [wellSorted] using hsorted
    exact List.forall_mem_singleton.mpr (declares_of_sortOf? hsort)
  | not operand ih =>
    rw [wellSorted] at hsorted
    exact ih hsorted
  | all operands ih =>
    rw [wellSorted] at hsorted
    exact hoperands hsorted ih
  | any operands ih =>
    rw [wellSorted] at hsorted
    exact hoperands hsorted ih
  | implies premise conclusion ihp ihc =>
    rw [wellSorted, Bool.and_eq_true] at hsorted
    exact List.forall_mem_append.mpr ⟨ihp hsorted.1, ihc hsorted.2⟩
  | known names =>
    rw [wellSorted, List.all_eq_true] at hsorted
    exact hsorted
  | notIn fact excluded =>
    have hsort : policy.sortOf? fact = some .int := by simpa [wellSorted] using hsorted
    exact List.forall_mem_singleton.mpr (declares_of_sortOf? hsort)

/-- The expression for a well-sorted predicate has words as its atoms. -/
theorem isPlain_expr (hwf : policy.WellFormed) {p : Predicate}
    (hsorted : policy.wellSorted p = true) : (policy.expr p).IsPlain :=
  isPlain_expr_of_mentions fun fact hfact => SExpr.isWord_of_isPlainSymbol
    (isPlainSymbol_of_declares hwf (declares_of_mem_mentions hsorted fact hfact))

end Policy

/-- The policies in force are well formed. -/
theorem Domain.wellFormed_policy (domain : Domain) : domain.policy.WellFormed := by
  cases domain with
  | authorization => exact ⟨by decide, by decide, by decide⟩
  | dispute => exact ⟨by decide, by decide, by decide⟩
  | creditLineIncrease => exact ⟨by decide, by decide, by decide⟩

end Verdict
