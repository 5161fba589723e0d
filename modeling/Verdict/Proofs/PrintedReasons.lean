import Verdict.Proofs.NonemptyReasons

/-!
# Reasons as they are printed

What a printed statement says of the facts, by the form that it has, and how a text is made of
statements: one after the other, with commas, semicolons or conjunctions between them. The text of a
reason is made of statements that are true of the facts.
-/

namespace Verdict

/-- A term with the value that it has, as both are quoted. -/
def Term.shown (v : Value) : Term → String
  | fact name => name ++ "=" ++ v.text
  | scaled name factor => name ++ "×" ++ factor.text ++ "=" ++ v.text
  | int _ => v.text
  | decimal _ => v.text

/-- A printed statement on a predicate that is true of the facts. -/
inductive TrueText (facts : FactSet) (whole : Predicate) : String → Prop where
  | comparison {left right : Term} {asked c : Comparison} {v w : Value}
      (hpart : whole.Part (.compare left asked right)) (hasked : c = asked ∨ c = asked.negate)
      (hleft : (left.eval facts).result = .ok v) (hright : (right.eval facts).result = .ok w)
      (h : v.compare c w = .ok true) :
      TrueText facts whole (left.shown v ++ " " ++ c.sign ++ " " ++ right.shown w)
  | flag {fact : String} {b : Bool} (hpart : whole.Part (.flag fact))
      (h : facts.get? fact = some (.bool b)) : TrueText facts whole (fact ++ "=" ++ toString b)
  | known {names : List String} (hpart : whole.Part (.known names))
      (h : ∀ fact ∈ names, facts.isKnown fact = true) :
      TrueText facts whole (", ".intercalate names ++ " known")
  | unknown {names : List String} (hsome : names ≠ [])
      (h : ∀ fact ∈ names, facts.isKnown fact = false) :
      TrueText facts whole (", ".intercalate names ++ " unknown")
  | allowed {fact : String} {excluded : List Int64} {v : Value} {n : Int}
      (hpart : whole.Part (.notIn fact excluded)) (hvalue : facts.get? fact = some v)
      (hn : v.asInt = .ok n) (h : n ∉ excluded.map Int64.toInt) :
      TrueText facts whole (fact ++ "=" ++ v.text ++ " is allowed")
  | blocked {fact : String} {excluded : List Int64} {v : Value} {n : Int}
      (hpart : whole.Part (.notIn fact excluded)) (hvalue : facts.get? fact = some v)
      (hn : v.asInt = .ok n) (h : n ∈ excluded.map Int64.toInt) :
      TrueText facts whole (fact ++ "=" ++ v.text ++ " is blocked")
  | fault {part : Predicate} {f : Fault} (hpart : whole.Part part)
      (h : (part.eval facts).result = .error f) : TrueText facts whole f.message

/-- The statements of a text, from left to right. -/
inductive MadeOf : List String → String → Prop where
  | statement (text : String) : MadeOf [text] text
  | joined {separator : String} (hseparator : separator ∈ [", ", " and ", "; "])
      (parts : List (List String × String)) (hparts : ∀ part ∈ parts, MadeOf part.1 part.2) :
      MadeOf (parts.flatMap (·.1)) (separator.intercalate (parts.map (·.2)))

/-- The text is made of statements, at least one of them, and each is true of the facts as one on a
predicate of the given kind. -/
def Truthful (facts : FactSet) (About : Predicate → Prop) (text : String) : Prop :=
  ∃ statements, statements ≠ [] ∧ MadeOf statements text ∧
    ∀ s ∈ statements, ∃ p, About p ∧ TrueText facts p s

variable {facts : FactSet} {whole p : Predicate} {About : Predicate → Prop} {text : String}

/-! ## Statements -/

theorem Quote.Gives.text_eq {q : Quote} {v : Value} (h : q.Gives facts v) :
    q.text = q.term.shown v := by
  rw [Quote.text, h.1]
  cases q.term <;> rfl

namespace Reason

theorem texts_eq_map (parts : List Reason) : texts parts = parts.map Reason.text := by
  induction parts with
  | nil => rfl
  | cons r rest ih => rw [texts, List.map_cons, ih]

theorem madeOf_intercalate {separator : String} (hseparator : separator ∈ [", ", " and ", "; "])
    {parts : List Reason} (h : ∀ r ∈ parts, MadeOf (r.clauses.map ReasonClause.text) r.text) :
    MadeOf ((clausesOf parts).map ReasonClause.text) (separator.intercalate (texts parts)) := by
  have hmade := MadeOf.joined hseparator
    (parts.map fun r => (r.clauses.map ReasonClause.text, r.text))
    (List.forall_mem_map.mpr h)
  rw [List.flatMap_map, List.map_map] at hmade
  rw [clausesOf_eq_flatMap, List.map_flatMap, texts_eq_map]
  exact hmade

mutual

/-- The text of a reason is made of the texts of its statements. -/
theorem madeOf_text : ∀ r : Reason, MadeOf (r.clauses.map ReasonClause.text) r.text
  | clause c => .statement c.text
  | listed parts => madeOf_intercalate (by simp) (madeOf_texts parts)
  | joined parts => madeOf_intercalate (by simp) (madeOf_texts parts)

theorem madeOf_texts : ∀ parts : List Reason,
    ∀ r ∈ parts, MadeOf (r.clauses.map ReasonClause.text) r.text
  | [] => nofun
  | r :: rest => List.forall_mem_cons.mpr ⟨r.madeOf_text, madeOf_texts rest⟩

end

end Reason

namespace Truthful

theorem statement (habout : About p) (h : TrueText facts p text) : Truthful facts About text :=
  ⟨[text], List.cons_ne_nil _ _, .statement text, fun _ hs =>
    ⟨p, habout, List.mem_singleton.mp hs ▸ h⟩⟩

/-- Texts with semicolons between them. -/
theorem joined {texts : List String} (hsome : texts ≠ [])
    (h : ∀ text ∈ texts, Truthful facts About text) :
    Truthful facts About ("; ".intercalate texts) := by
  have hparts : ∃ parts : List (List String × String), parts.map (·.2) = texts ∧
      ∀ part ∈ parts, part.1 ≠ [] ∧ MadeOf part.1 part.2 ∧
        ∀ s ∈ part.1, ∃ p, About p ∧ TrueText facts p s := by
    clear hsome
    induction texts with
    | nil => exact ⟨[], rfl, nofun⟩
    | cons text rest ih =>
      obtain ⟨⟨statements, hstatements⟩, hrest⟩ := List.forall_mem_cons.mp h
      obtain ⟨parts, htexts, hparts⟩ := ih hrest
      exact ⟨(statements, text) :: parts, by rw [List.map_cons, htexts],
        List.forall_mem_cons.mpr ⟨hstatements, hparts⟩⟩
  obtain ⟨parts, rfl, hparts⟩ := hparts
  refine ⟨parts.flatMap (·.1), ?_, .joined (by simp) parts ?_, fun s hs => ?_⟩
  · obtain ⟨part, hpart⟩ := List.exists_mem_of_ne_nil parts (by simpa using hsome)
    obtain ⟨s, hs⟩ := List.exists_mem_of_ne_nil part.1 (hparts part hpart).1
    exact List.ne_nil_of_mem (List.mem_flatMap.mpr ⟨part, hpart, hs⟩)
  · exact fun part hpart => (hparts part hpart).2.1
  · obtain ⟨part, hpart, hs⟩ := List.mem_flatMap.mp hs
    exact (hparts part hpart).2.2 s hs

end Truthful

namespace Predicate

end Predicate

end Verdict
