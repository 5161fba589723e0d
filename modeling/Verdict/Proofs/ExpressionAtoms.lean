import Verdict.Proof.Program
import Verdict.Proofs.Evaluation
import Verdict.Proofs.ExpressionMeaning

/-!
# The atoms of an expression

The expression for a predicate has no other atoms than operators, literals, the facts that the
predicate mentions, and the symbols for those that it wants to be known. What holds of all of these
holds of every atom, be it that they are words or that they are declared.
-/

namespace Verdict

namespace SExpr

mutual

/-- The atoms of an expression, in the order of its text. -/
def atoms : SExpr → List String
  | atom s => [s]
  | list items => atomsOf items

/-- The atoms of several expressions. -/
def atomsOf : List SExpr → List String
  | [] => []
  | e :: rest => e.atoms ++ atomsOf rest

end

theorem mem_atomsOf {items : List SExpr} {s : String} :
    s ∈ atomsOf items ↔ ∃ e ∈ items, s ∈ e.atoms := by
  induction items with
  | nil => simp [atomsOf]
  | cons e rest ih => simp [atomsOf, ih]

theorem isPlain_of_atoms : ∀ {e : SExpr}, (∀ s ∈ e.atoms, isWord s = true) → e.IsPlain
  | atom s, h => .atom (h s List.mem_cons_self)
  | list _, h => .list fun e he => isPlain_of_atoms fun s hs => h s (mem_atomsOf.mpr ⟨e, he, hs⟩)

/-- The operators of expressions. -/
def operators : List String :=
  ["not", "and", "or", "=>", "=", "<", "<=", ">", ">=", "-", "*"]

/-- The atom is a truth value, or it begins as a number does. -/
def isLiteral (s : String) : Bool :=
  s == "true" || s == "false" || s.toList.head?.any Char.isDigit

/-- The atom is neither an operator nor a literal, nor does it stand in for an unknown value. -/
def isSymbol (s : String) : Bool :=
  !operators.contains s && !isLiteral s && s != unknownSymbol

/-- Atoms whose meaning does not depend on what is declared. -/
inductive IsFixed : String → Prop where
  | operator {s : String} (h : s ∈ operators) : IsFixed s
  | truth (b : Bool) : IsFixed (toString b)
  | numeral {s : String} {x : ℚ} (h : IsNumeral s x) : IsFixed s
  | placeholder : IsFixed unknownSymbol

theorem IsFixed.isWord {s : String} (h : IsFixed s) : SExpr.isWord s = true := by
  cases h with
  | operator h =>
    have hwords : ∀ s ∈ operators, SExpr.isWord s = true := by decide
    exact hwords s h
  | truth b => cases b <;> decide
  | numeral h => exact h.isWord
  | placeholder => decide

theorem IsFixed.isSymbol_eq_false {s : String} (h : IsFixed s) : isSymbol s = false := by
  cases h with
  | operator h => simp [isSymbol, h]
  | truth b => cases b <;> decide
  | numeral h => simp [isSymbol, isLiteral, h.digit]
  | placeholder => decide

/-- Every atom of the expression is fixed or has the property. -/
def Over (P : String → Prop) (e : SExpr) : Prop :=
  ∀ s ∈ e.atoms, IsFixed s ∨ P s

variable {P : String → Prop}

theorem Over.mono {Q : String → Prop} {e : SExpr} (h : e.Over P) (hPQ : ∀ s, P s → Q s) :
    e.Over Q :=
  fun s hs => (h s hs).imp_right (hPQ s)

theorem Over.isPlain {e : SExpr} (h : e.Over fun s => isWord s = true) : e.IsPlain :=
  isPlain_of_atoms fun s hs => (h s hs).elim IsFixed.isWord id

/-- A symbol in the expression is not fixed, so it has the property. -/
theorem Over.of_isSymbol {e : SExpr} (h : e.Over P) {s : String} (hs : s ∈ e.atoms)
    (hsymbol : isSymbol s = true) : P s := by
  rcases h s hs with hfixed | hP
  · rw [hfixed.isSymbol_eq_false] at hsymbol
    cases hsymbol
  · exact hP

theorem over_atom {s : String} (h : IsFixed s ∨ P s) : (atom s).Over P := by
  intro t ht
  obtain rfl : t = s := List.mem_singleton.mp ht
  exact h

theorem over_apply {operator : String} (hoperator : operator ∈ operators) {operands : List SExpr}
    (h : ∀ e ∈ operands, e.Over P) : (apply operator operands).Over P := by
  intro s hs
  obtain ⟨e, he, hs⟩ := mem_atomsOf.mp hs
  rcases List.mem_cons.mp he with rfl | he
  · exact over_atom (Or.inl (.operator hoperator)) s hs
  · exact h e he s hs

theorem over_join {operator unit : String} (hoperator : operator ∈ operators)
    (hunit : IsFixed unit) {operands : List SExpr} (h : ∀ e ∈ operands, e.Over P) :
    (join operator unit operands).Over P := by
  match operands with
  | [] => exact over_atom (Or.inl hunit)
  | [e] => exact h e List.mem_cons_self
  | _ :: _ :: _ => exact over_apply hoperator h

theorem over_signed {s : String} {x : ℚ} (h : IsNumeral s x) (negative : Bool) :
    (signed negative s).Over P := by
  have hs : (atom s).Over P := over_atom (Or.inl (.numeral h))
  cases negative with
  | false => exact hs
  | true => exact over_apply (by decide) (List.forall_mem_singleton.mpr hs)

theorem over_int (n : ℤ) : (int n).Over P :=
  over_signed (isNumeral_natural n.natAbs) _

theorem over_real (d : Decimal) : (real d).Over P :=
  over_signed (isNumeral_abs d) _

end SExpr

namespace Predicate

theorem mem_mentionsOf {operands : List Predicate} {fact : String} :
    fact ∈ mentionsOf operands ↔ ∃ p ∈ operands, fact ∈ p.mentions := by
  induction operands with
  | nil => simp [mentionsOf]
  | cons p rest ih => simp [mentionsOf, ih]

theorem mem_knownMentionsOf {operands : List Predicate} {fact : String} :
    fact ∈ knownMentionsOf operands ↔ ∃ p ∈ operands, fact ∈ p.knownMentions := by
  induction operands with
  | nil => simp [knownMentionsOf]
  | cons p rest ih => simp [knownMentionsOf, ih]

/-- A fact that has to be known is mentioned. -/
theorem mem_mentions_of_mem_knownMentions {p : Predicate} {fact : String}
    (h : fact ∈ p.knownMentions) : fact ∈ p.mentions := by
  induction p with
  | compare left c right => exact absurd h List.not_mem_nil
  | flag name => exact absurd h List.not_mem_nil
  | not operand ih => exact ih h
  | all operands ih =>
    obtain ⟨p, hp, h⟩ := mem_knownMentionsOf.mp h
    exact mem_mentionsOf.mpr ⟨p, hp, ih p hp h⟩
  | any operands ih =>
    obtain ⟨p, hp, h⟩ := mem_knownMentionsOf.mp h
    exact mem_mentionsOf.mpr ⟨p, hp, ih p hp h⟩
  | implies premise conclusion ihp ihc =>
    exact List.mem_append.mpr ((List.mem_append.mp h).imp ihp ihc)
  | known names => exact h
  | notIn name excluded => exact absurd h List.not_mem_nil

end Predicate

namespace Policy

variable {policy : Policy} {P : String → Prop}

theorem exists_comparisonExpr (left right : Term) {c : Comparison} (hc : c ≠ .ne) :
    ∃ real, policy.comparisonExpr left c right =
      .apply c.symbol [termExpr real left, termExpr real right] := by
  cases c with
  | ne => exact absurd rfl hc
  | _ => exact ⟨_, rfl⟩

theorem comparisonExpr_ne (left right : Term) : policy.comparisonExpr left .ne right =
    .apply "not" [policy.comparisonExpr left .eq right] := rfl

theorem exprs_eq_map (operands : List Predicate) :
    policy.exprs operands = operands.map policy.expr := by
  induction operands with
  | nil => rfl
  | cons p rest ih => rw [exprs, ih, List.map_cons]

theorem over_termExpr {t : Term} (h : ∀ fact ∈ t.fact?.toList, P fact) (real : Bool) :
    (termExpr real t).Over P := by
  cases t with
  | fact name => exact SExpr.over_atom (Or.inr (h name List.mem_cons_self))
  | int n =>
    cases real with
    | false => exact SExpr.over_int _
    | true => exact SExpr.over_real _
  | decimal d => exact SExpr.over_real d
  | scaled name factor =>
    have hname : (SExpr.atom name).Over P := SExpr.over_atom (Or.inr (h name List.mem_cons_self))
    exact SExpr.over_apply (by decide)
      (List.forall_mem_cons.mpr ⟨hname, List.forall_mem_singleton.mpr (SExpr.over_real factor)⟩)

theorem over_comparisonExpr {left right : Term} (c : Comparison)
    (h : ∀ fact ∈ left.fact?.toList ++ right.fact?.toList, P fact) :
    (policy.comparisonExpr left c right).Over P := by
  obtain ⟨hleft, hright⟩ := List.forall_mem_append.mp h
  have hsymbol : ∀ c : Comparison, c ≠ .ne → (policy.comparisonExpr left c right).Over P := by
    intro c hc
    obtain ⟨real, hreal⟩ := policy.exists_comparisonExpr left right hc
    have hoperator : c.symbol ∈ SExpr.operators := by cases c <;> first | decide | exact absurd rfl hc
    rw [hreal]
    exact SExpr.over_apply hoperator (List.forall_mem_cons.mpr
      ⟨over_termExpr hleft real, List.forall_mem_singleton.mpr (over_termExpr hright real)⟩)
  by_cases hc : c = .ne
  · rw [hc, comparisonExpr_ne]
    exact SExpr.over_apply (by decide)
      (List.forall_mem_singleton.mpr (hsymbol .eq (by decide)))
  · exact hsymbol c hc

/-- The expression for a predicate has no other symbols than the facts that the predicate mentions
and those that say whether a fact is known. -/
theorem over_expr {p : Predicate} (hmentions : ∀ fact ∈ p.mentions, P fact)
    (hknown : ∀ fact ∈ p.knownMentions, P (knownSymbol fact)) : (policy.expr p).Over P := by
  have hoperands : ∀ {operands : List Predicate},
      (∀ fact ∈ Predicate.mentionsOf operands, P fact) →
      (∀ fact ∈ Predicate.knownMentionsOf operands, P (knownSymbol fact)) →
      (∀ p ∈ operands, (∀ fact ∈ p.mentions, P fact) →
        (∀ fact ∈ p.knownMentions, P (knownSymbol fact)) → (policy.expr p).Over P) →
      ∀ e ∈ policy.exprs operands, e.Over P := by
    intro operands hmentions hknown ih e he
    rw [exprs_eq_map] at he
    obtain ⟨p, hp, rfl⟩ := List.mem_map.mp he
    exact ih p hp (fun fact hfact => hmentions fact (Predicate.mem_mentionsOf.mpr ⟨p, hp, hfact⟩))
      fun fact hfact => hknown fact (Predicate.mem_knownMentionsOf.mpr ⟨p, hp, hfact⟩)
  induction p with
  | compare left c right => exact over_comparisonExpr c hmentions
  | flag fact => exact SExpr.over_atom (Or.inr (hmentions fact List.mem_cons_self))
  | not operand ih =>
    exact SExpr.over_apply (by decide) (List.forall_mem_singleton.mpr (ih hmentions hknown))
  | all operands ih =>
    exact SExpr.over_join (by decide) (.truth true) (hoperands hmentions hknown ih)
  | any operands ih =>
    exact SExpr.over_join (by decide) (.truth false) (hoperands hmentions hknown ih)
  | implies premise conclusion ihp ihc =>
    obtain ⟨hpremise, hconclusion⟩ := List.forall_mem_append.mp hmentions
    obtain ⟨hpremise', hconclusion'⟩ := List.forall_mem_append.mp hknown
    exact SExpr.over_apply (by decide) (List.forall_mem_cons.mpr
      ⟨ihp hpremise hpremise', List.forall_mem_singleton.mpr (ihc hconclusion hconclusion')⟩)
  | known names =>
    refine SExpr.over_join (by decide) (.truth true) fun e he => ?_
    obtain ⟨fact, hfact, rfl⟩ := List.mem_map.mp he
    exact SExpr.over_atom (Or.inr (hknown fact hfact))
  | notIn fact excluded =>
    have hfact : (SExpr.atom fact).Over P :=
      SExpr.over_atom (Or.inr (hmentions fact List.mem_cons_self))
    refine SExpr.over_apply (by decide) (List.forall_mem_singleton.mpr ?_)
    refine SExpr.over_join (by decide) (.truth false) fun e he => ?_
    obtain ⟨n, -, rfl⟩ := List.mem_map.mp he
    exact SExpr.over_apply (by decide) (List.forall_mem_cons.mpr
      ⟨hfact, List.forall_mem_singleton.mpr (SExpr.over_int _)⟩)

/-- Where the facts that a predicate mentions are words, its expression is read back from its
text. -/
theorem isPlain_expr_of_mentions {p : Predicate}
    (h : ∀ fact ∈ p.mentions, SExpr.isWord fact = true) : (policy.expr p).IsPlain := by
  refine SExpr.Over.isPlain (over_expr h fun fact hfact => ?_)
  exact SExpr.isWord_knownSymbol (h fact (Predicate.mem_mentions_of_mem_knownMentions hfact))

end Policy

end Verdict
