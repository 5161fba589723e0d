import Verdict.Proofs.AuthorizationOrder
import Verdict.Proofs.BoundaryErrors

/-!
# The channel of a payment

An invariant asks whether the card is present, so the channel has a part in whether a payment is
satisfiable and in what its core lists. It has none in the decision: each approval asks for a risk
for which this invariant holds anyway. So payments that differ in their channel only are improved by
one another, and a probe of the channel never finds a difference.
-/

namespace Verdict

namespace Decision

variable {a b : Decision}

theorem eq_of_leniency? (h : a.leniency? = b.leniency?) (hsome : a.leniency?.isSome) : a = b := by
  cases a <;> cases b <;> simp_all [leniency?]

/-- Decisions that are each at least as strict as the other are the same. -/
theorem AtMost.antisymm (h : a.AtMost b) (h' : b.AtMost a) : a = b := by
  obtain ⟨m, n, hm, hn, hle⟩ := h
  obtain ⟨n', m', hn', hm', hle'⟩ := h'
  obtain rfl : m = m' := Option.some.inj (hm.symm.trans hm')
  obtain rfl : n = n' := Option.some.inj (hn.symm.trans hn')
  obtain rfl : m = n := le_antisymm hle hle'
  exact eq_of_leniency? (hm.trans hn.symm) (hm ▸ Option.isSome_some)

end Decision

namespace AuthorizationFacts

variable {f f' : AuthorizationFacts}

/-- Payments that differ in their channel only. -/
def SameButChannel (f f' : AuthorizationFacts) : Prop :=
  ∃ channel, f' = { f with cardNotPresent := channel }

theorem SameButChannel.symm (h : f.SameButChannel f') : f'.SameButChannel f := by
  obtain ⟨channel, rfl⟩ := h
  exact ⟨f.cardNotPresent, rfl⟩

theorem SameButChannel.improvedBy (h : f.SameButChannel f') : f.ImprovedBy f' := by
  obtain ⟨channel, rfl⟩ := h
  exact
    { amount := fun a ha => ⟨a, ha, le_refl _⟩
      availableBalance := fun b hb => ⟨b, hb, le_refl _⟩
      creditLimit := fun l hl => ⟨l, hl, le_refl _⟩
      riskScore := fun r hr => ⟨r, hr, le_refl _⟩
      merchantCategoryCode := fun _ hcode => hcode
      velocity := fun n hn => ⟨n, hn, le_refl _⟩ }

end AuthorizationFacts

namespace FactRecord

variable {f f' : AuthorizationFacts}

/-- In both modes the decision does not depend on the channel. -/
theorem judge_of_sameButChannel (h : f.SameButChannel f') (mode : Mode) :
    ((authorization f').judge mode).1.decision = ((authorization f).judge mode).1.decision := by
  rw [judge_authorization_decision, judge_authorization_decision]
  exact (verify_atMost_of_improvedBy h.symm.improvedBy).antisymm
    (verify_atMost_of_improvedBy h.improvedBy)

/-- The channel is replaced and all else is kept, but for the signs of zeros. -/
theorem withFact_channel (f : AuthorizationFacts) (channel : Option Bool) :
    (authorization f).withFact "card_not_present" (stated (channel.map .bool)) =
      .ok (authorization { f.plain with cardNotPresent := channel }) := by
  have hread : assemble .authorization
      (.object [("card_not_present", stated (channel.map .bool))]) =
        .ok (authorization ⟨none, none, none, none, none, channel, none⟩) := by
    rcases channel with - | - | - <;> rfl
  have hdomain : Domain.authorization ≠ .dispute := by decide
  have hdeclared : Domain.authorization.policy.declares "card_not_present" = true := by decide
  rw [withFact_of_ne_dispute (r := authorization f) hdomain hdeclared, domain, hread, Except.map_ok]
  rfl

end FactRecord

/-- The channel is accepted as a truth value or as null. -/
theorem Value.Kind.accepts_bool_iff {v : Json} :
    bool.accepts v = true ↔ v = .null ∨ ∃ b, v = .bool b := by
  cases v <;> simp [accepts, reads, boolOfJson?, Json.isNull]

namespace FactRecord

variable {f : AuthorizationFacts} {value : Json}

theorem exists_stated_channel (h : value = .null ∨ ∃ b, value = .bool b) :
    ∃ channel : Option Bool, value = stated (channel.map .bool) := by
  rcases h with rfl | ⟨b, rfl⟩
  · exact ⟨none, rfl⟩
  · exact ⟨some b, rfl⟩

theorem exists_withFact_channel_iff :
    (∃ copy, (authorization f).withFact "card_not_present" value = .ok copy) ↔
      value = .null ∨ ∃ b, value = .bool b := by
  constructor
  · rintro ⟨copy, hcopy⟩
    rw [← Value.Kind.accepts_bool_iff]
    by_contra hrejects
    have herror := ((authorization f).withFact_eq_error_iff_rejects "card_not_present" value _).mpr
      (Or.inr ⟨.bool, rfl, eq_false_of_ne_true hrejects, rfl⟩)
    cases hcopy.symm.trans herror
  · intro h
    obtain ⟨channel, rfl⟩ := exists_stated_channel h
    exact ⟨_, withFact_channel f channel⟩

end FactRecord

open FactRecord in
/-- The channel of a payment can be replaced by a truth value and by null, and by nothing else. The
decision is unchanged by every such replacement, in both modes and whatever else is known. -/
theorem unchangedBy_channel_iff (f : AuthorizationFacts) (value : Json) (mode : Mode) :
    ((authorization f).unchangedBy "card_not_present" value mode = .ok true ↔
        ∃ copy, (authorization f).withFact "card_not_present" value = .ok copy) ∧
      ((∃ copy, (authorization f).withFact "card_not_present" value = .ok copy) ↔
        value = .null ∨ ∃ b, value = .bool b) := by
  refine ⟨⟨fun h => ?_, fun h => ?_⟩, exists_withFact_channel_iff⟩
  · cases hcopy : (authorization f).withFact "card_not_present" value with
    | ok copy => exact ⟨copy, rfl⟩
    | error e => cases h.symm.trans ((unchangedBy_eq_error_iff _ _ _ mode e).mpr hcopy)
  · obtain ⟨channel, rfl⟩ := exists_stated_channel (exists_withFact_channel_iff.mp h)
    have hplain : ((authorization f.plain).judge mode).1 = ((authorization f).judge mode).1 :=
      congrArg Prod.fst ((authorization f).judge_plain mode)
    have hdecision := judge_of_sameButChannel (f := f.plain) ⟨channel, rfl⟩ mode
    rw [unchangedBy_eq (withFact_channel f channel), hdecision, hplain, beq_self_eq_true]

/-- At a risk between the two bounds the channel decides whether every invariant holds, and the
payment is declined either way. -/
example :
    let payment (cardNotPresent : Bool) := FactRecord.authorization { lowRiskPayment with
      riskScore := Decimal.ofParts? false 70 2, cardNotPresent := some cardNotPresent }
    (payment true).verify.satisfiable = false ∧ (payment false).verify.satisfiable = true ∧
      (payment true).verify.decision = .decline ∧ (payment false).verify.decision = .decline := by
  decide +kernel

end Verdict
