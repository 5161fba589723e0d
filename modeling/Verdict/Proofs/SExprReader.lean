import Verdict.Proof.SExpr

/-!
# Reading symbolic expressions

A scan takes one character after the other. It keeps the lists that are open, the items of the
innermost one, and the characters of a word that has begun. Brackets and white space end a word;
all other characters have to be among those that a symbol may have. The text of an expression whose
atoms are words is read as this expression.
-/

namespace Verdict

/-- What stands in an intercalation stands in one of the lists or in the separator. -/
theorem exists_of_mem_intercalate {α : Type} {x : α} {separator : List α} {lists : List (List α)}
    (hx : x ∉ separator) (h : x ∈ List.intercalate separator lists) : ∃ l ∈ lists, x ∈ l := by
  induction lists with
  | nil => exact absurd h List.not_mem_nil
  | cons l rest ih =>
    cases rest with
    | nil => exact ⟨l, List.mem_cons_self, by simpa using h⟩
    | cons l' rest =>
      rw [List.intercalate_cons_cons, List.append_assoc, List.mem_append, List.mem_append] at h
      rcases h with h | h | h
      · exact ⟨l, List.mem_cons_self, h⟩
      · exact absurd h hx
      · obtain ⟨found, hfound, h⟩ := ih h
        exact ⟨found, List.mem_cons_of_mem l hfound, h⟩

namespace SExpr

/-- A character of a symbol. -/
def isSymbolChar (c : Char) : Bool :=
  c.isAlphanum ||
    ['~', '!', '@', '$', '%', '^', '&', '*', '_', '-', '+', '=', '<', '>', '.', '?', '/'].contains c

/-- A text with at least one character, all of them characters of a symbol. -/
def isWord (s : String) : Bool :=
  !s.toList.isEmpty && s.toList.all isSymbolChar

theorem isWord_append {s t : String} (hs : isWord s = true) (ht : isWord t = true) :
    isWord (s ++ t) = true := by
  simp only [isWord, Bool.and_eq_true, Bool.not_eq_true', List.isEmpty_eq_false_iff,
    String.toList_append, List.all_append] at hs ht ⊢
  exact ⟨List.append_ne_nil_of_left_ne_nil hs.1 _, hs.2, ht.2⟩

/-- What was read so far. Items and characters stand in reverse order. -/
structure Scan where
  /-- The items of the lists that are open around the innermost one. -/
  opened : List (List SExpr)
  /-- The items of the innermost list that is open. -/
  items : List SExpr
  /-- The characters of the word that has begun. -/
  word : List Char

namespace Scan

/-- Nothing was read. -/
def start : Scan := ⟨[], [], []⟩

/-- One more item in the innermost list. -/
def push (s : Scan) (e : SExpr) : Scan :=
  { s with items := e :: s.items, word := [] }

/-- Ends the word that has begun, if there is one. -/
def flush (s : Scan) : Scan :=
  if s.word.isEmpty then s else s.push (.atom (String.ofList s.word.reverse))

/-- Begins a list. -/
def opening (s : Scan) : Scan :=
  ⟨s.items :: s.opened, [], []⟩

/-- Ends the innermost list, if a list is open. -/
def closing? (s : Scan) : Option Scan :=
  match s.opened with
  | outer :: opened => some ⟨opened, .list s.items.reverse :: outer, []⟩
  | [] => none

/-- Takes one character. -/
def step (s : Scan) (c : Char) : Option Scan :=
  if c = '(' then some s.flush.opening
  else if c = ')' then s.flush.closing?
  else if c.isWhitespace then some s.flush
  else if isSymbolChar c then some { s with word := c :: s.word }
  else none

/-- Takes all characters of a text. -/
def run (s : Scan) (cs : List Char) : Option Scan :=
  cs.foldlM step s

/-- The single expression that was read, if no list is open. -/
def result? (s : Scan) : Option SExpr :=
  match s.flush with
  | ⟨[], [e], _⟩ => some e
  | _ => none

end Scan

/-- Reads a text that is one expression. -/
def read? (text : String) : Option SExpr :=
  (Scan.start.run text.toList).bind Scan.result?

/-- Every atom is a word. -/
inductive IsPlain : SExpr → Prop where
  | atom {s : String} (h : isWord s = true) : IsPlain (atom s)
  | list {items : List SExpr} (h : ∀ e ∈ items, IsPlain e) : IsPlain (list items)

/-! ## The text of an expression -/

theorem texts_eq_map (items : List SExpr) : texts items = items.map text := by
  induction items with
  | nil => rfl
  | cons e rest ih => rw [texts, ih, List.map_cons]

theorem toList_text_list (items : List SExpr) :
    (list items).text.toList =
      '(' :: (List.intercalate [' '] (items.map fun e => e.text.toList) ++ [')']) := by
  rw [text, texts_eq_map]
  simp [String.toList_intercalate, Function.comp_def]

namespace Scan

theorem run_append (s : Scan) (cs cs' : List Char) :
    s.run (cs ++ cs') = (s.run cs).bind fun s' => s'.run cs' :=
  List.foldlM_append

theorem run_cons (s : Scan) (c : Char) (cs : List Char) :
    s.run (c :: cs) = (s.step c).bind fun s' => s'.run cs :=
  List.foldlM_cons

theorem flush_of_nil {s : Scan} (h : s.word = []) : s.flush = s := by
  simp [flush, h]

theorem foldl_push (items : List SExpr) {s : Scan} (h : s.word = []) :
    items.foldl push s = ⟨s.opened, items.reverse ++ s.items, []⟩ := by
  induction items generalizing s with
  | nil => rw [← h]; rfl
  | cons e rest ih => simp [ih, push]

theorem step_symbol (s : Scan) {c : Char} (h : isSymbolChar c = true) :
    s.step c = some { s with word := c :: s.word } := by
  have hne : ∀ d, isSymbolChar d = false → c ≠ d := by
    rintro d hd rfl
    exact absurd h (by rw [hd]; decide)
  have hblank : c.isWhitespace = false := by
    simp [Char.isWhitespace, hne ' ' (by decide), hne '\t' (by decide), hne '\r' (by decide),
      hne '\n' (by decide)]
  simp [step, hne '(' (by decide), hne ')' (by decide), hblank, h]

theorem step_space (s : Scan) : s.step ' ' = some s.flush := rfl

theorem run_word {cs : List Char} (h : ∀ c ∈ cs, isSymbolChar c = true) (s : Scan) :
    s.run cs = some { s with word := cs.reverse ++ s.word } := by
  induction cs generalizing s with
  | nil => rfl
  | cons c rest ih =>
    rw [run_cons, s.step_symbol (h c List.mem_cons_self), Option.bind_some,
      ih fun c' hc' => h c' (List.mem_cons_of_mem c hc')]
    simp

/-- The text of an expression is scanned to one more item once its last word is ended. -/
def Pushes (e : SExpr) : Prop :=
  ∀ s : Scan, s.word = [] → ∃ s', s.run e.text.toList = some s' ∧ s'.flush = s.push e

theorem pushes_atom {text : String} (h : isWord text = true) : Pushes (.atom text) := by
  intro s hs
  obtain ⟨hne, hall⟩ : text.toList ≠ [] ∧ ∀ c ∈ text.toList, isSymbolChar c = true := by
    simpa [isWord] using h
  refine ⟨_, run_word hall s, ?_⟩
  simp [flush, hs, hne, push]

/-- The items of a list are scanned one by one, and each is ended by the space after it. -/
theorem run_items {items : List SExpr} (h : ∀ e ∈ items, Pushes e) {s : Scan} (hs : s.word = []) :
    ∃ s', s.run (List.intercalate [' '] (items.map fun e => e.text.toList)) = some s' ∧
      s'.flush = items.foldl push s := by
  induction items generalizing s with
  | nil => exact ⟨s, rfl, flush_of_nil hs⟩
  | cons e rest ih =>
    obtain ⟨s', hrun, hflush⟩ := h e List.mem_cons_self s hs
    cases rest with
    | nil => exact ⟨s', by simpa using hrun, hflush⟩
    | cons e' rest =>
      obtain ⟨s'', hrun', hflush'⟩ :=
        ih (fun x hx => h x (List.mem_cons_of_mem e hx)) (show (s.push e).word = [] from rfl)
      refine ⟨s'', ?_, hflush'⟩
      rw [List.map_cons, List.map_cons, List.intercalate_cons_cons, List.append_assoc, run_append,
        hrun, Option.bind_some, List.singleton_append, run_cons, step_space, Option.bind_some,
        hflush]
      exact hrun'

theorem pushes_list {items : List SExpr} (h : ∀ e ∈ items, Pushes e) : Pushes (.list items) := by
  intro s hs
  obtain ⟨s', hrun, hflush⟩ := run_items h (show s.opening.word = [] from rfl)
  rw [foldl_push items rfl] at hflush
  have hopen : s.step '(' = some s.opening := by
    rw [← flush_of_nil hs]
    simp [step, flush_of_nil hs]
  have hclose : s'.step ')' = some (s.push (.list items)) := by
    have hstep : s'.step ')' = s'.flush.closing? := rfl
    rw [hstep, hflush]
    simp [closing?, opening, push]
  refine ⟨s.push (.list items), ?_, flush_of_nil rfl⟩
  rw [toList_text_list, run_cons, hopen, Option.bind_some, run_append, hrun, Option.bind_some,
    run_cons, hclose, Option.bind_some]
  rfl

end Scan

theorem IsPlain.pushes {e : SExpr} (h : e.IsPlain) : Scan.Pushes e := by
  induction h with
  | atom h => exact Scan.pushes_atom h
  | list _ ih => exact Scan.pushes_list ih

/-- The text of an expression whose atoms are words is read as this expression. -/
theorem IsPlain.read?_text {e : SExpr} (h : e.IsPlain) : read? e.text = some e := by
  obtain ⟨s, hrun, hflush⟩ := h.pushes Scan.start rfl
  rw [read?, hrun, Option.bind_some, Scan.result?, hflush]
  rfl

theorem isPlain_apply {operator : String} (hoperator : isWord operator = true)
    {operands : List SExpr} (h : ∀ e ∈ operands, e.IsPlain) : (apply operator operands).IsPlain :=
  .list (List.forall_mem_cons.mpr ⟨.atom hoperator, h⟩)

theorem isPlain_signed {magnitude : String} (h : isWord magnitude = true) (negative : Bool) :
    (signed negative magnitude).IsPlain := by
  cases negative with
  | false => exact .atom h
  | true => exact isPlain_apply (by decide) (List.forall_mem_singleton.mpr (.atom h))

example : read? "(<= amount (* income 0.3))" = some
    (apply "<=" [.atom "amount", apply "*" [.atom "income", .atom "0.3"]]) := by
  cbv

end SExpr

end Verdict
