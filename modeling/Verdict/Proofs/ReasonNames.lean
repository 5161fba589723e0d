import Verdict.Proofs.ExpressionAtoms
import Verdict.Proofs.Provenance
import Verdict.Proofs.TrueReasons

/-!
# Reasons name what is mentioned

A fault that blames a fact for being unknown blames one that was consulted, and what is consulted is
mentioned. So the statements of a reason name no other facts than those that its predicate mentions.
-/

namespace Verdict

/-! ## Blamed facts -/

namespace Reading

variable {α β : Type}

/-- A fact that is blamed for being unknown was consulted. -/
def BlamesConsulted (r : Reading α) : Prop :=
  ∀ fact, r.result = .error (.unknownFact fact) → fact ∈ r.consulted

theorem blamesConsulted_of_ne {result : Except Fault α}
    (h : ∀ fact, result ≠ .error (.unknownFact fact)) : (ofExcept result).BlamesConsulted :=
  fun fact hfact => absurd hfact (h fact)

theorem blamesConsulted_pure (a : α) : (pure a : Reading α).BlamesConsulted :=
  blamesConsulted_of_ne nofun

theorem blamesConsulted_ofFact (facts : FactSet) (fact : String) :
    (ofFact facts fact).BlamesConsulted := by
  intro blamed h
  unfold ofFact at h
  cases hvalue : facts.get? fact with
  | some value =>
    rw [hvalue] at h
    cases h
  | none =>
    rw [hvalue] at h
    cases h
    exact List.mem_singleton_self fact

theorem BlamesConsulted.bind {first : Reading α} {next : α → Reading β}
    (hfirst : first.BlamesConsulted) (hnext : ∀ a, (next a).BlamesConsulted) :
    (first >>= next).BlamesConsulted := by
  intro fact h
  cases hr : first.result with
  | ok a =>
    rw [bind_of_ok hr] at h ⊢
    exact List.mem_append_right _ (hnext a fact h)
  | error fault =>
    rw [bind_of_error hr] at h ⊢
    cases h
    exact hfirst fact hr

theorem kept_blamesConsulted : Kept fun read => ∀ facts, (read facts).BlamesConsulted where
  pure b _ := blamesConsulted_pure b
  bind hfirst hnext facts := (hfirst facts).bind fun b => hnext b facts

end Reading

namespace Value

theorem asBool_ne_unknownFact (v : Value) (fact : String) :
    v.asBool ≠ .error (.unknownFact fact) := by
  cases v <;> exact nofun

theorem asInt_ne_unknownFact (v : Value) (fact : String) :
    v.asInt ≠ .error (.unknownFact fact) := by
  cases v <;> exact nofun

theorem compare_ne_unknownFact (v w : Value) (c : Comparison) (fact : String) :
    v.compare c w ≠ .error (.unknownFact fact) := by
  cases v <;> cases w <;> cases c <;> exact nofun

theorem scale_ne_unknownFact (v : Value) (factor : Decimal) (fact : String) :
    v.scale factor ≠ .error (.unknownFact fact) := by
  intro h
  unfold scale at h
  cases hbase : v.asDecimal with
  | error fault =>
    cases v <;> cases hbase <;> cases h
  | ok base =>
    rw [hbase] at h
    cases hproduct : base.mul? factor <;> simp [bind, Except.bind, hproduct] at h

end Value

open Reading

theorem Term.blamesConsulted_eval (facts : FactSet) (t : Term) :
    (t.eval facts).BlamesConsulted := by
  cases t with
  | fact name => exact blamesConsulted_ofFact facts name
  | int n => exact blamesConsulted_pure _
  | decimal d => exact blamesConsulted_pure _
  | scaled name factor =>
    exact (blamesConsulted_ofFact facts name).bind fun base =>
      blamesConsulted_of_ne (base.scale_ne_unknownFact factor)

namespace Predicate

theorem blamesConsulted_eval (facts : FactSet) (p : Predicate) :
    (p.eval facts).BlamesConsulted := by
  have hleaves : ∀ leaf ∈ p.leaves, ∀ facts, (leaf.eval facts).BlamesConsulted := by
    intro leaf hleaf facts
    cases isLeaf_of_mem_leaves hleaf with
    | compare left c right =>
      exact (left.blamesConsulted_eval facts).bind fun l =>
        (right.blamesConsulted_eval facts).bind fun r =>
          blamesConsulted_of_ne (l.compare_ne_unknownFact r c)
    | flag fact =>
      exact (blamesConsulted_ofFact facts fact).bind fun value =>
        blamesConsulted_of_ne value.asBool_ne_unknownFact
    | known names => exact nofun
    | notIn fact excluded =>
      exact (blamesConsulted_ofFact facts fact).bind fun value =>
        (blamesConsulted_of_ne value.asInt_ne_unknownFact).bind fun _ => blamesConsulted_pure _
  exact kept_blamesConsulted.eval hleaves facts

/-- A predicate mentions the fact that it faults for want of. -/
theorem mem_mentions_of_unknownFact {facts : FactSet} {p : Predicate} {fact : String}
    (h : (p.eval facts).result = .error (.unknownFact fact)) : fact ∈ p.mentions :=
  mem_mentions_of_consulted (p.blamesConsulted_eval facts fact h)

end Predicate

/-! ## Facts in reasons -/

/-- The fact that a fault blames. -/
def Fault.fact? : Fault → Option String
  | unknownFact fact => some fact
  | _ => none

/-- The facts that a statement names. -/
def ReasonClause.facts : ReasonClause → List String
  | comparison left _ right => left.term.fact?.toList ++ right.term.fact?.toList
  | flag fact _ => [fact]
  | known names => names
  | unknown names => names
  | allowed quote => quote.term.fact?.toList
  | blocked quote => quote.term.fact?.toList
  | fault f => f.fact?.toList

namespace Predicate

theorem Part.mentions {whole p : Predicate} (h : whole.Part p) {fact : String}
    (hfact : fact ∈ p.mentions) : fact ∈ whole.mentions := by
  induction h with
  | whole => exact hfact
  | negated _ ih => exact ih hfact
  | conjunct _ hmem ih => exact ih (mem_mentionsOf.mpr ⟨_, hmem, hfact⟩)
  | disjunct _ hmem ih => exact ih (mem_mentionsOf.mpr ⟨_, hmem, hfact⟩)
  | premise _ ih => exact ih (List.mem_append_left _ hfact)
  | conclusion _ ih => exact ih (List.mem_append_right _ hfact)

theorem stated_facts (facts : FactSet) (whole : Predicate) :
    whole.Stated facts fun clause => ∀ fact ∈ clause.facts, fact ∈ whole.mentions where
  unknown hpart _ := by
    intro fact hfact
    exact hpart.mentions (Names.mem_distinct.mp (List.mem_filter.mp hfact).1)
  fault {p f} hpart hfault := by
    intro fact hfact
    cases f with
    | unknownFact blamed =>
      obtain rfl : fact = blamed := List.mem_singleton.mp hfact
      exact hpart.mentions (mem_mentions_of_unknownFact hfault)
    | _ => exact absurd hfact List.not_mem_nil
  comparison hpart _ := by
    intro fact hfact
    exact hpart.mentions hfact
  flag hpart _ := by
    intro fact hfact
    exact hpart.mentions hfact
  known {names wanted} hpart _ := by
    cases wanted with
    | true => exact fun fact hfact => hpart.mentions hfact
    | false => exact fun fact hfact => hpart.mentions (List.mem_filter.mp hfact).1
  notIn {fact excluded wanted} hpart _ := by
    cases wanted <;> exact fun other hother => hpart.mentions hother

/-- A reason names no other facts than those that the predicate mentions. -/
theorem mem_mentions_of_reason {facts : FactSet} {p : Predicate} {wanted : Bool}
    (h : p.MayBe facts wanted) : (p.reason facts wanted).Every fun clause =>
      ∀ fact ∈ clause.facts, fact ∈ p.mentions :=
  (stated_facts facts p).every_reason .whole h

end Predicate

end Verdict
