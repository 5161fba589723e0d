import Verdict.Proof.Program
import Verdict.Proofs.DateText
import Verdict.Proofs.Results
import Verdict.Proofs.WellSorted

/-!
# The lines of a program text

No line of a proof program contains a line break, as its expressions are made of words and its
remarks are closed texts or dates. So the text of a program can be split into its lines again. A
line that binds a symbol is an expression up to its remark, and can be read as such.
-/

namespace Verdict

namespace SExpr

/-! ## Characters of an expression -/

/-- The characters of a list, but for brackets and spaces, are those of its items. -/
theorem exists_of_mem_text_list {c : Char} {items : List SExpr} (hc : c ∉ ['(', ')', ' '])
    (h : c ∈ (list items).text.toList) : ∃ e ∈ items, c ∈ e.text.toList := by
  rw [toList_text_list] at h
  simp only [List.mem_cons, List.mem_append, List.not_mem_nil, or_false, not_or] at h hc
  rcases h with h | h | h
  · exact absurd h hc.1
  · obtain ⟨cs, hcs, hmem⟩ :=
      exists_of_mem_intercalate (by simpa using hc.2.2) h
    obtain ⟨e, he, rfl⟩ := List.mem_map.mp hcs
    exact ⟨e, he, hmem⟩
  · exact absurd h hc.2.1

theorem IsPlain.isSymbolChar_of_mem {e : SExpr} (he : e.IsPlain) {c : Char}
    (hc : c ∉ ['(', ')', ' ']) (h : c ∈ e.text.toList) : isSymbolChar c = true := by
  induction he with
  | atom hword =>
    rw [isWord, Bool.and_eq_true, List.all_eq_true] at hword
    exact hword.2 c h
  | list _ ih =>
    obtain ⟨e, he, hmem⟩ := exists_of_mem_text_list hc h
    exact ih e he hmem

theorem IsPlain.not_mem_text {e : SExpr} (h : e.IsPlain) {c : Char} (hc : c ∉ ['(', ')', ' '])
    (hsymbol : isSymbolChar c = false) : c ∉ e.text.toList := by
  intro hmem
  rw [h.isSymbolChar_of_mem hc hmem] at hsymbol
  cases hsymbol

theorem IsPlain.newline_not_mem {e : SExpr} (h : e.IsPlain) : '\n' ∉ e.text.toList :=
  h.not_mem_text (by decide) (by decide)

theorem IsPlain.semicolon_not_mem {e : SExpr} (h : e.IsPlain) : ';' ∉ e.text.toList :=
  h.not_mem_text (by decide) (by decide)

theorem not_mem_text_apply {c : Char} (hc : c ∉ ['(', ')', ' ']) {operator : String}
    (hoperator : c ∉ operator.toList) {operands : List SExpr}
    (h : ∀ e ∈ operands, c ∉ e.text.toList) : c ∉ (apply operator operands).text.toList := by
  intro hmem
  obtain ⟨e, he, hmem⟩ := exists_of_mem_text_list hc hmem
  rcases List.mem_cons.mp he with rfl | he
  · exact hoperator hmem
  · exact h e he hmem

/-- A space after the text of an expression does not matter to its reading. -/
theorem IsPlain.read?_text_space {e : SExpr} (h : e.IsPlain) :
    read? (e.text ++ " ") = some e := by
  obtain ⟨s, hrun, hflush⟩ := h.pushes Scan.start rfl
  have hspace : Scan.run s " ".toList = some (Scan.start.push e) := by
    rw [← hflush]
    rfl
  rw [read?, String.toList_append, Scan.run_append, hrun, Option.bind_some, hspace]
  rfl

end SExpr

/-! ## Lines -/

namespace Statement

/-- The line has no line break in it. -/
def IsLine (s : Statement) : Prop :=
  '\n' ∉ s.text.toList

theorem isLine_comment {remark : String} (h : '\n' ∉ remark.toList) : (comment remark).IsLine := by
  simpa [IsLine, text] using h

theorem isLine_declare {symbol : String} (h : SExpr.isWord symbol = true) (sort : FactSort) :
    (declare symbol sort).IsLine := by
  have hsort : SExpr.isWord sort.name = true := by cases sort <;> decide
  exact (SExpr.isPlain_apply (by decide) (List.forall_mem_cons.mpr
    ⟨.atom h, List.forall_mem_singleton.mpr (.atom hsort)⟩)).newline_not_mem

theorem not_mem_text_assertion {c : Char} (hc : c ∉ ['(', ')', ' '])
    (hsymbol : SExpr.isSymbolChar c = false) (hne : c ≠ ':') {name : String}
    (hname : SExpr.isWord name = true) {body : SExpr} (hbody : body.IsPlain) :
    c ∉ (assertion name body).text.toList := by
  have hword : ∀ {s : String}, SExpr.isWord s = true → c ∉ (SExpr.atom s).text.toList :=
    fun hs => (SExpr.IsPlain.atom hs).not_mem_text hc hsymbol
  have hkeyword : c ∉ (SExpr.atom ":named").text.toList := by
    intro hmem
    rcases List.mem_cons.mp hmem with rfl | hmem
    · exact hne rfl
    · exact hword (s := "named") (by decide) hmem
  refine SExpr.not_mem_text_apply hc (hword (by decide)) (List.forall_mem_singleton.mpr ?_)
  refine SExpr.not_mem_text_apply hc (hword (by decide)) ?_
  exact List.forall_mem_cons.mpr ⟨hbody.not_mem_text hc hsymbol, List.forall_mem_cons.mpr
    ⟨hkeyword, List.forall_mem_singleton.mpr (hword hname)⟩⟩

theorem isLine_assertion {name : String} (hname : SExpr.isWord name = true) {body : SExpr}
    (hbody : body.IsPlain) : (assertion name body).IsLine :=
  not_mem_text_assertion (by decide) (by decide) (by decide) hname hbody

/-- The assertion that a line makes of a symbol. -/
def equation (symbol : String) (value : SExpr) : SExpr :=
  .apply "assert" [.apply "=" [.atom symbol, value]]

theorem isPlain_equation {symbol : String} (hsymbol : SExpr.isWord symbol = true) {value : SExpr}
    (hvalue : value.IsPlain) : (equation symbol value).IsPlain := by
  refine SExpr.isPlain_apply (by decide) (List.forall_mem_singleton.mpr ?_)
  exact SExpr.isPlain_apply (by decide) (List.forall_mem_cons.mpr
    ⟨.atom hsymbol, List.forall_mem_singleton.mpr hvalue⟩)

theorem isLine_bind {symbol : String} (hsymbol : SExpr.isWord symbol = true) {value : SExpr}
    (hvalue : value.IsPlain) {remark : Option String} (hremark : ∀ r ∈ remark, '\n' ∉ r.toList) :
    (bind symbol value remark).IsLine := by
  have hequation := (isPlain_equation hsymbol hvalue).newline_not_mem
  cases remark with
  | none => simpa [IsLine, text, equation] using hequation
  | some r => simpa [IsLine, text, equation] using ⟨hequation, hremark r rfl⟩

/-- The part of a line that binds a symbol before its remark. A space follows the assertion if there
is a remark. -/
def bindCode (symbol : String) (value : SExpr) (remark : Option String) : List Char :=
  (equation symbol value).text.toList ++ (remark.map fun _ => ' ').toList

theorem toList_text_bind (symbol : String) (value : SExpr) (remark : Option String) :
    (bind symbol value remark).text.toList =
      bindCode symbol value remark ++ remark.elim [] fun r => ';' :: ' ' :: r.toList := by
  cases remark <;> simp [text, bindCode, equation]

theorem not_mem_bindCode {c : Char} (hc : c ∉ ['(', ')', ' ']) (hchar : SExpr.isSymbolChar c = false)
    {symbol : String} (hsymbol : SExpr.isWord symbol = true) {value : SExpr}
    (hvalue : value.IsPlain) (remark : Option String) : c ∉ bindCode symbol value remark := by
  rw [bindCode, List.mem_append, not_or]
  refine ⟨(isPlain_equation hsymbol hvalue).not_mem_text hc hchar, ?_⟩
  simp only [List.mem_cons, not_or] at hc
  cases remark with
  | none => exact List.not_mem_nil
  | some r => exact fun hmem => hc.2.2.1 (List.mem_singleton.mp hmem)

theorem takeWhile_bind {symbol : String} (hsymbol : SExpr.isWord symbol = true) {value : SExpr}
    (hvalue : value.IsPlain) (remark : Option String) :
    (bind symbol value remark).text.toList.takeWhile (· != ';') = bindCode symbol value remark := by
  have hkept : ∀ c ∈ bindCode symbol value remark, (c != ';') = true := by
    intro c hc
    rw [bne_iff_ne]
    rintro rfl
    exact not_mem_bindCode (by decide) (by decide) hsymbol hvalue remark hc
  rw [toList_text_bind, List.takeWhile_append_of_pos hkept]
  cases remark <;> simp

/-- Up to its remark a line that binds a symbol is read as the assertion that it makes. -/
theorem read?_bindCode {symbol : String} (hsymbol : SExpr.isWord symbol = true) {value : SExpr}
    (hvalue : value.IsPlain) (remark : Option String) :
    SExpr.read? (.ofList (bindCode symbol value remark)) = some (equation symbol value) := by
  have hplain := isPlain_equation hsymbol hvalue
  rw [bindCode, String.ofList_append, String.ofList_toList]
  cases remark with
  | none => exact (congrArg SExpr.read? String.append_empty).trans hplain.read?_text
  | some r => exact hplain.read?_text_space

/-- Lines of the same text that bind a symbol bind it to the same literal. -/
theorem literal_eq_of_text_eq {symbol : String} (hsymbol : SExpr.isWord symbol = true)
    {value value' : SExpr} (hvalue : value.IsPlain) (hvalue' : value'.IsPlain)
    {remark remark' : Option String}
    (h : (bind symbol value remark).text = (bind symbol value' remark').text) : value = value' := by
  have hcode := takeWhile_bind hsymbol hvalue remark
  rw [h, takeWhile_bind hsymbol hvalue' remark'] at hcode
  have hread := read?_bindCode hsymbol hvalue remark
  rw [← hcode, read?_bindCode hsymbol hvalue' remark'] at hread
  simpa [equation, SExpr.apply] using hread.symm

/-- The names in the line are words, and no remark has a line break in it. -/
inductive IsPlain : Statement → Prop where
  | comment {remark : String} (h : '\n' ∉ remark.toList) : IsPlain (comment remark)
  | declare {symbol : String} (h : SExpr.isWord symbol = true) (sort : FactSort) :
      IsPlain (declare symbol sort)
  | bind {symbol : String} (hsymbol : SExpr.isWord symbol = true) {value : SExpr}
      (hvalue : value.IsPlain) {remark : Option String} (hremark : ∀ r ∈ remark, '\n' ∉ r.toList) :
      IsPlain (bind symbol value remark)
  | assertion {name : String} (hname : SExpr.isWord name = true) {body : SExpr}
      (hbody : body.IsPlain) : IsPlain (assertion name body)

theorem IsPlain.isLine {s : Statement} (h : s.IsPlain) : s.IsLine := by
  cases h with
  | comment h => exact isLine_comment h
  | declare h sort => exact isLine_declare h sort
  | bind hsymbol hvalue hremark => exact isLine_bind hsymbol hvalue hremark
  | assertion hname hbody => exact isLine_assertion hname hbody

end Statement

namespace Program

theorem toList_text (program : Program) : program.text.toList =
    List.intercalate ['\n'] (program.map (·.text.toList) ++ [[]]) := by
  induction program with
  | nil => rfl
  | cons s rest ih =>
    have hcons : (text (s :: rest)).toList = s.text.toList ++ '\n' :: (text rest).toList := by
      simp [text, String.toList_join]
    rw [hcons, ih, List.map_cons, List.cons_append, List.intercalate_cons_of_ne_nil (by simp)]
    simp

theorem splitOn_text {program : Program} (h : ∀ s ∈ program, s.IsLine) :
    program.text.toList.splitOn '\n' = program.map (·.text.toList) ++ [[]] := by
  rw [toList_text, List.splitOn_intercalate '\n' ?_ (by simp)]
  intro line hline
  rcases List.mem_append.mp hline with hline | hline
  · obtain ⟨s, hs, rfl⟩ := List.mem_map.mp hline
    exact h s hs
  · rw [List.mem_singleton.mp hline]
    exact List.not_mem_nil

/-- Programs of the same text have the same lines. -/
theorem map_text_eq {program program' : Program} (h : ∀ s ∈ program, s.IsLine)
    (h' : ∀ s ∈ program', s.IsLine) (htext : program.text = program'.text) :
    program.map Statement.text = program'.map Statement.text := by
  have hlines := splitOn_text h
  rw [htext, splitOn_text h', List.append_cancel_right_eq] at hlines
  have hmap := congrArg (List.map String.ofList) hlines
  simpa [Function.comp_def] using hmap.symm

end Program

/-! ## The lines of the program of a policy -/

/-- The literal for a value has no symbol in it, and the remark on it no line break. -/
theorem Value.over_literal {P : String → Prop} {sort : FactSort} {v : Value} {literal : SExpr}
    {remark : Option String} (h : v.literal? sort = some (literal, remark)) :
    literal.Over P ∧ ∀ r ∈ remark, '\n' ∉ r.toList := by
  cases v with
  | bool b =>
    obtain ⟨-, h⟩ : sort = .bool ∧ (SExpr.atom (toString b), none) = (literal, remark) := by
      simpa [literal?] using h
    cases h
    exact ⟨SExpr.over_atom (Or.inl (.truth b)), nofun⟩
  | int n =>
    cases sort with
    | int =>
      cases h
      exact ⟨SExpr.over_int _, nofun⟩
    | real =>
      cases h
      exact ⟨SExpr.over_real _, nofun⟩
    | bool => cases h
  | decimal d =>
    obtain ⟨-, h⟩ : sort = .real ∧ (SExpr.real d, none) = (literal, remark) := by
      simpa [literal?] using h
    cases h
    exact ⟨SExpr.over_real d, nofun⟩
  | date d =>
    obtain ⟨-, h⟩ : sort = .int ∧ (SExpr.int d.julianDay, some d.text) = (literal, remark) := by
      simpa [literal?] using h
    cases h
    refine ⟨SExpr.over_int _, ?_⟩
    rintro r ⟨⟩ hmem
    have hblank := Date.isBlank_of_mem_chars (by simpa [Date.text] using hmem)
    exact absurd hblank (by decide)

/-- The line that gives a declared fact its value binds it to a literal for this value, or to the
placeholder if there is none. -/
theorem Declaration.exists_of_binding {facts : FactSet} {d : Declaration} {line : Statement}
    (h : d.binding facts = .ok line) : ∃ literal remark, line = .bind d.fact literal remark ∧
      literal.IsPlain ∧ (∀ r ∈ remark, '\n' ∉ r.toList) ∧
      ((facts.get? d.fact = none ∧ literal = .atom unknownSymbol) ∨
        ∃ value, facts.get? d.fact = some value ∧
          value.literal? d.sort = some (literal, remark)) := by
  rw [binding] at h
  cases hvalue : facts.get? d.fact with
  | none =>
    simp only [hvalue] at h
    cases h
    exact ⟨_, _, rfl, .atom (by decide), nofun, Or.inl ⟨rfl, rfl⟩⟩
  | some value =>
    cases hliteral : value.literal? d.sort with
    | none =>
      simp only [hvalue, hliteral] at h
      cases h
    | some pair =>
      simp only [hvalue, hliteral] at h
      cases h
      obtain ⟨hover, hremark⟩ := Value.over_literal hliteral
      exact ⟨_, _, rfl, hover.isPlain, hremark, Or.inr ⟨value, rfl, hliteral⟩⟩

theorem Policy.isWord_fact {policy : Policy} (hwf : policy.WellFormed) {d : Declaration}
    (hd : d ∈ policy.facts) : SExpr.isWord d.fact = true :=
  SExpr.isWord_of_isPlainSymbol (hwf.plain d hd)

/-- The names that a policy has are words. -/
structure Policy.WordNames (policy : Policy) : Prop where
  id : '\n' ∉ policy.id.toList
  facts : ∀ d ∈ policy.facts, SExpr.isWord d.fact = true
  names : ∀ clause ∈ policy.invariants ++ policy.actions, SExpr.isWord clause.name = true
  mentions : ∀ clause ∈ policy.invariants ++ policy.actions,
    ∀ fact ∈ clause.condition.mentions, SExpr.isWord fact = true

theorem Policy.WordNames.isPlain_of_mem {policy : Policy} (h : policy.WordNames) {facts : FactSet}
    {program : Program} (hprogram : policy.program facts = .ok program) :
    ∀ s ∈ program, s.IsPlain := by
  have hheader : '\n' ∉ ("proofgate program " ++ policy.id ++ " (" ++
      policy.domain.name ++ ")").toList := by
    have hdomain : '\n' ∉ policy.domain.name.toList := by cases policy.domain <;> decide
    simp [h.id, hdomain]
  have hknown : ∀ fact ∈ policy.knownFacts, SExpr.isWord (knownSymbol fact) = true := by
    intro fact hfact
    obtain ⟨clause, hclause, hfact⟩ := List.mem_flatMap.mp (Names.mem_distinct.mp hfact)
    exact SExpr.isWord_knownSymbol
      (h.mentions clause hclause fact (Predicate.mem_mentions_of_mem_knownMentions hfact))
  have hexpr : ∀ clause ∈ policy.invariants ++ policy.actions,
      (policy.expr clause.condition).IsPlain :=
    fun clause hclause => isPlain_expr_of_mentions (h.mentions clause hclause)
  rw [Policy.program] at hprogram
  obtain ⟨bindings, hbindings, hprogram⟩ := exists_of_bind_eq_ok hprogram
  cases hprogram
  intro s hs
  simp only [declarations, knownBindings, List.mem_cons, List.mem_append, List.mem_map,
    List.mem_flatMap] at hs
  rcases hs with (((rfl | rfl | ⟨d, hd, rfl⟩ | ⟨fact, hfact, rfl⟩) | rfl |
    hs | ⟨fact, hfact, rfl⟩) | rfl | ⟨clause, hclause, rfl⟩) | rfl | ⟨clause, hclause, hs⟩
  · exact .comment hheader
  · exact .comment (by decide)
  · exact .declare (h.facts d hd) _
  · exact .declare (hknown fact hfact) _
  · exact .comment (by decide)
  · obtain ⟨d, hd, hbinding⟩ := exists_of_mem_mapM hbindings hs
    obtain ⟨literal, remark, rfl, hliteral, hremark, -⟩ := d.exists_of_binding hbinding
    exact .bind (h.facts d hd) hliteral hremark
  · refine .bind (hknown fact hfact) (.atom ?_) nofun
    cases facts.isKnown fact <;> decide
  · exact .comment (by decide)
  · have hmem := List.mem_append_left policy.actions hclause
    exact .assertion (h.names clause hmem) (hexpr clause hmem)
  · exact .comment (by decide)
  · have hmem := List.mem_append_right policy.invariants hclause
    have hpick : SExpr.isWord (pickSymbol clause.name) = true :=
      SExpr.isWord_append (by decide) (h.names clause hmem)
    simp only [actionLines, List.mem_cons, List.not_mem_nil, or_false] at hs
    rcases hs with rfl | rfl
    · exact .declare hpick _
    · exact .assertion (h.names clause hmem) (SExpr.isPlain_apply (by decide)
        (List.forall_mem_cons.mpr ⟨.atom hpick, List.forall_mem_singleton.mpr
          (hexpr clause hmem)⟩))

theorem Domain.wordNames_policy (domain : Domain) : domain.policy.WordNames where
  id := by cases domain <;> decide
  facts _ hd := Policy.isWord_fact domain.wellFormed_policy hd
  names := by cases domain <;> decide +kernel
  mentions clause hclause fact hfact := by
    have hwf := domain.wellFormed_policy
    exact SExpr.isWord_of_isPlainSymbol (Policy.isPlainSymbol_of_declares hwf
      (Policy.declares_of_mem_mentions (hwf.sorted clause hclause) fact hfact))

/-- The program of a policy in force consists of lines. -/
theorem Domain.isLine_of_mem_program {domain : Domain} {facts : FactSet} {program : Program}
    (h : domain.policy.program facts = .ok program) : ∀ s ∈ program, s.IsLine :=
  fun s hs => (domain.wordNames_policy.isPlain_of_mem h s hs).isLine

end Verdict
