import Verdict.Proofs.ProgramText

/-!
# Reading a proof program

A line is a remark, or an expression with a remark after it. The text of a program in which all
names are words is read line by line as this program, so everything that can be said of its lines
can be read off its text.
-/

namespace Verdict

/-- The sort that a word names. -/
def FactSort.ofName? (name : String) : Option FactSort :=
  [real, int, bool].find? fun sort => sort.name == name

@[simp] theorem FactSort.ofName?_name (sort : FactSort) : ofName? sort.name = some sort := by
  cases sort <;> decide

namespace Statement

/-- The line that an expression is. Names of attributes are without their colon. -/
def ofExpr? (remark : Option String) : SExpr → Option Statement
  | .list [.atom "declare-const", .atom symbol, .atom sort] =>
    (FactSort.ofName? sort).map (declare symbol)
  | .list [.atom "assert", .list [.atom "=", .atom symbol, value]] =>
    some (bind symbol value remark)
  | .list [.atom "assert", .list [.atom "!", body, .atom "named", .atom name]] =>
    some (assertion name body)
  | _ => none

/-- The remark that the rest of a line is. -/
def remark? : List Char → Option String
  | ';' :: ' ' :: remark => some (.ofList remark)
  | _ => none

/-- Reads a line up to its remark as an expression, passing over colons. A line without one is all
remark. -/
def read? (line : List Char) : Option Statement :=
  let remark := remark? (line.dropWhile (· != ';'))
  match line.takeWhile (· != ';') with
  | [] => remark.map comment
  | code => (SExpr.read? (.ofList (code.filter (· != ':')))).bind (ofExpr? remark)

end Statement

/-- Reads the lines of a text. -/
def Program.read? (text : String) : Option Program :=
  (text.toList.splitOn '\n').dropLast.mapM Statement.read?

namespace Statement

theorem filter_colon_eq_self {cs : List Char} (h : ':' ∉ cs) : cs.filter (· != ':') = cs := by
  rw [List.filter_eq_self]
  intro c hc
  rw [bne_iff_ne]
  rintro rfl
  exact h hc

/-- A line is read as the expression before its remark. -/
theorem read?_append {code rest : List Char} (hne : code ≠ []) (hcode : ';' ∉ code)
    (hrest : rest = [] ∨ ∃ remark, rest = ';' :: remark) {e : SExpr}
    (he : SExpr.read? (.ofList (code.filter (· != ':'))) = some e) :
    read? (code ++ rest) = ofExpr? (remark? rest) e := by
  have hkept : ∀ c ∈ code, (c != ';') = true := by
    intro c hc
    rw [bne_iff_ne]
    rintro rfl
    exact hcode hc
  have htake : (code ++ rest).takeWhile (· != ';') = code := by
    rw [List.takeWhile_append_of_pos hkept]
    rcases hrest with rfl | ⟨remark, rfl⟩ <;> simp
  have hdrop : (code ++ rest).dropWhile (· != ';') = rest := by
    rw [List.dropWhile_append_of_pos hkept]
    rcases hrest with rfl | ⟨remark, rfl⟩ <;> simp
  obtain ⟨c, cs, rfl⟩ := List.exists_cons_of_ne_nil hne
  simp only [read?, htake, hdrop, he]
  rfl

theorem read?_of_code {line : List Char} (hne : line ≠ []) (hcode : ';' ∉ line) {e : SExpr}
    (he : SExpr.read? (.ofList (line.filter (· != ':'))) = some e) :
    read? line = ofExpr? none e := by
  simpa [remark?] using read?_append hne hcode (Or.inl rfl) he

theorem read?_text_comment (remark : String) :
    read? (comment remark).text.toList = some (comment remark) := by
  have htext : (comment remark).text.toList = ';' :: ' ' :: remark.toList := by
    simp [text]
  rw [htext]
  simp [read?, remark?]

theorem read?_text_declare {symbol : String} (h : SExpr.isWord symbol = true) (sort : FactSort) :
    read? (declare symbol sort).text.toList = some (declare symbol sort) := by
  have hsort : SExpr.isWord sort.name = true := by cases sort <;> decide
  have hplain : (SExpr.apply "declare-const" [.atom symbol, .atom sort.name]).IsPlain :=
    SExpr.isPlain_apply (by decide) (List.forall_mem_cons.mpr
      ⟨.atom h, List.forall_mem_singleton.mpr (.atom hsort)⟩)
  have hcolon := filter_colon_eq_self (hplain.not_mem_text (c := ':') (by decide) (by decide))
  have hread : SExpr.read? (.ofList ((declare symbol sort).text.toList.filter (· != ':'))) =
      some (.apply "declare-const" [.atom symbol, .atom sort.name]) := by
    rw [text, hcolon, String.ofList_toList, hplain.read?_text]
  have hne : (declare symbol sort).text.toList ≠ [] := by
    simp [text, SExpr.apply, SExpr.text]
  rw [read?_of_code hne hplain.semicolon_not_mem hread]
  simp [SExpr.apply, ofExpr?]

theorem read?_text_bind {symbol : String} (hsymbol : SExpr.isWord symbol = true) {value : SExpr}
    (hvalue : value.IsPlain) (remark : Option String) :
    read? (bind symbol value remark).text.toList = some (bind symbol value remark) := by
  have hnot : ∀ {c : Char}, c ∉ ['(', ')', ' '] → SExpr.isSymbolChar c = false →
      c ∉ bindCode symbol value remark :=
    fun hc hchar => not_mem_bindCode hc hchar hsymbol hvalue remark
  have hread : SExpr.read? (.ofList ((bindCode symbol value remark).filter (· != ':'))) =
      some (equation symbol value) := by
    rw [filter_colon_eq_self (hnot (by decide) (by decide)), read?_bindCode hsymbol hvalue]
  have hne : bindCode symbol value remark ≠ [] := by
    simp [bindCode, equation, SExpr.apply, SExpr.text]
  have hsemicolon : ';' ∉ bindCode symbol value remark := hnot (by decide) (by decide)
  rw [toList_text_bind]
  cases remark with
  | none => exact read?_append hne hsemicolon (Or.inl rfl) hread
  | some r =>
    refine (read?_append hne hsemicolon (Or.inr ⟨_, rfl⟩) hread).trans ?_
    simp [equation, SExpr.apply, ofExpr?, remark?]

theorem read?_text_assertion {name : String} (hname : SExpr.isWord name = true) {body : SExpr}
    (hbody : body.IsPlain) : read? (assertion name body).text.toList = some (assertion name body) := by
  have hplain : (SExpr.apply "assert"
      [.apply "!" [body, .atom "named", .atom name]]).IsPlain := by
    refine SExpr.isPlain_apply (by decide) (List.forall_mem_singleton.mpr ?_)
    exact SExpr.isPlain_apply (by decide) (List.forall_mem_cons.mpr ⟨hbody, List.forall_mem_cons.mpr
      ⟨.atom (by decide), List.forall_mem_singleton.mpr (.atom hname)⟩⟩)
  have hfilter : (assertion name body).text.toList.filter (· != ':') =
      (SExpr.apply "assert" [.apply "!" [body, .atom "named", .atom name]]).text.toList := by
    have hbody := filter_colon_eq_self (hbody.not_mem_text (c := ':') (by decide) (by decide))
    have hname := filter_colon_eq_self
      ((SExpr.IsPlain.atom hname).not_mem_text (c := ':') (by decide) (by decide))
    simp only [SExpr.text] at hname
    simp [text, SExpr.apply, SExpr.text, SExpr.texts, hbody, hname]
  have hread : SExpr.read? (.ofList ((assertion name body).text.toList.filter (· != ':'))) =
      some (.apply "assert" [.apply "!" [body, .atom "named", .atom name]]) := by
    rw [hfilter, String.ofList_toList, hplain.read?_text]
  have hne : (assertion name body).text.toList ≠ [] := by
    simp [text, SExpr.apply, SExpr.text]
  rw [read?_of_code hne (not_mem_text_assertion (by decide) (by decide) (by decide) hname hbody)
    hread]
  rfl

theorem IsPlain.read?_text {s : Statement} (h : s.IsPlain) : read? s.text.toList = some s := by
  cases h with
  | comment h => exact read?_text_comment _
  | declare h sort => exact read?_text_declare h sort
  | bind hsymbol hvalue hremark => exact read?_text_bind hsymbol hvalue _
  | assertion hname hbody => exact read?_text_assertion hname hbody

end Statement

namespace Program

/-- The text of a program is read as this program if all its names are words. -/
theorem read?_text {program : Program} (h : ∀ s ∈ program, s.IsPlain) :
    read? program.text = some program := by
  have hlines : ∀ {program : Program}, (∀ s ∈ program, s.IsPlain) →
      (program.map (·.text.toList)).mapM Statement.read? = some program := by
    intro program h
    induction program with
    | nil => rfl
    | cons s rest ih =>
      obtain ⟨hs, hrest⟩ := List.forall_mem_cons.mp h
      rw [List.map_cons, List.mapM_cons, hs.read?_text, ih hrest]
      rfl
  rw [read?, splitOn_text fun s hs => (h s hs).isLine, List.dropLast_concat, hlines h]

end Program

end Verdict
