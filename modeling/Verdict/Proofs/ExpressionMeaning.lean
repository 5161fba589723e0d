import Mathlib.Data.List.TakeWhile
import Verdict.Proof.Expression
import Verdict.Proofs.DecimalText
import Verdict.Proofs.DecimalValue
import Verdict.Proofs.SExprReader

/-!
# What expressions mean

An expression of a proof program means a rational number or a truth value, or nothing where an
operator does not take such operands. Symbols have the values that a valuation gives them. The
literals for whole numbers and decimals mean their exact values, and connectives that are written
shorter for one operand or none mean what they do for several.
-/

namespace Verdict

/-- What an expression stands for. -/
inductive Meaning where
  | number (x : ℚ)
  | truth (b : Bool)
deriving DecidableEq

/-- Values for all symbols. -/
abbrev Valuation : Type := String → Meaning

namespace Meaning

/-- The truth value. -/
def truth? : Meaning → Option Bool
  | truth b => some b
  | number _ => none

/-- Applies an operator. -/
def operate? : String → List Meaning → Option Meaning
  | "not", [truth a] => some (truth !a)
  | "and", a :: b :: rest => ((a :: b :: rest).mapM truth?).map fun bs => truth (bs.all fun b => b)
  | "or", a :: b :: rest => ((a :: b :: rest).mapM truth?).map fun bs => truth (bs.any fun b => b)
  | "=>", [truth a, truth b] => some (truth (!a || b))
  | "=", [truth a, truth b] => some (truth (a == b))
  | "=", [number x, number y] => some (truth (decide (x = y)))
  | "<", [number x, number y] => some (truth (decide (x < y)))
  | "<=", [number x, number y] => some (truth (decide (x ≤ y)))
  | ">", [number x, number y] => some (truth (decide (y < x)))
  | ">=", [number x, number y] => some (truth (decide (y ≤ x)))
  | "-", [number x] => some (number (-x))
  | "*", [number x, number y] => some (number (x * y))
  | _, _ => none

theorem mapM_truth? (bs : List Bool) : (bs.map truth).mapM truth? = some bs := by
  induction bs with
  | nil => rfl
  | cons b rest ih =>
    rw [List.map_cons, List.mapM_cons, ih]
    rfl

theorem operate?_and (a b : Bool) (rest : List Bool) :
    operate? "and" ((a :: b :: rest).map truth) = some (truth ((a :: b :: rest).all fun b => b)) := by
  have htruths := mapM_truth? (a :: b :: rest)
  rw [List.map_cons, List.map_cons] at htruths ⊢
  rw [operate?, htruths]
  rfl

theorem operate?_or (a b : Bool) (rest : List Bool) :
    operate? "or" ((a :: b :: rest).map truth) = some (truth ((a :: b :: rest).any fun b => b)) := by
  have htruths := mapM_truth? (a :: b :: rest)
  rw [List.map_cons, List.map_cons] at htruths ⊢
  rw [operate?, htruths]
  rfl

theorem operate?_symbol {c : Comparison} (hc : c ≠ .ne) (x y : ℚ) :
    operate? c.symbol [number x, number y] = some (truth (c.relates x y)) := by
  cases c with
  | ne => exact absurd rfl hc
  | _ => rfl

end Meaning

/-- The number that is written by digits, with a point after the first of them or without one. -/
def numeral? (cs : List Char) : Option ℚ :=
  match cs.dropWhile (· != '.') with
  | [] => (Text.natural? cs).map fun n => (n : ℚ)
  | _ :: fraction => do
    let whole ← Text.natural? (cs.takeWhile (· != '.'))
    let part ← Text.natural? fraction
    some (whole + part / 10 ^ fraction.length)

namespace SExpr

/-- The meaning of an atom. -/
def atomMeaning? (ν : Valuation) (s : String) : Option Meaning :=
  if s = "true" then some (.truth true)
  else if s = "false" then some (.truth false)
  else if s.toList.head?.any Char.isDigit then (numeral? s.toList).map Meaning.number
  else some (ν s)

mutual

/-- The meaning of an expression. -/
def meaning? (ν : Valuation) : SExpr → Option Meaning
  | atom s => atomMeaning? ν s
  | list (atom operator :: operands) => (meanings? ν operands).bind (Meaning.operate? operator)
  | list _ => none

/-- The meanings of several expressions. -/
def meanings? (ν : Valuation) : List SExpr → Option (List Meaning)
  | [] => some []
  | e :: rest => do
    let m ← meaning? ν e
    let ms ← meanings? ν rest
    some (m :: ms)

end

end SExpr

/-- A symbol that is not read as a literal. -/
def isPlainSymbol (s : String) : Bool :=
  SExpr.isWord s && !s.toList.head?.any Char.isDigit && s != "true" && s != "false"

/-! ## Numbers -/

section

open Text

theorem ne_point_of_isDigit {c : Char} (h : c.isDigit = true) : (c != '.') = true := by
  rw [bne_iff_ne]
  rintro rfl
  exact absurd h (by decide)

theorem numeral?_digits {cs : List Char} (hne : cs ≠ []) (hds : ∀ c ∈ cs, c.isDigit = true) :
    numeral? cs = some (Nat.ofDigitChars 10 cs 0 : ℚ) := by
  have hdrop : cs.dropWhile (· != '.') = [] :=
    List.dropWhile_eq_nil_iff.mpr fun c hc => ne_point_of_isDigit (hds c hc)
  rw [numeral?, hdrop, natural?_eq_some hne hds]
  rfl

/-- The digits after the point count as many places as there are. -/
theorem numeral?_point {whole fraction : List Char} (hwhole : whole ≠ []) (hfraction : fraction ≠ [])
    (hds : ∀ c ∈ whole ++ fraction, c.isDigit = true) :
    numeral? (whole ++ '.' :: fraction) =
      some ((Nat.ofDigitChars 10 (whole ++ fraction) 0 : ℚ) / 10 ^ fraction.length) := by
  have hdigit : ∀ c ∈ whole, c.isDigit = true := fun c hc => hds c (List.mem_append_left _ hc)
  have hpoint : ∀ c ∈ whole, (c != '.') = true := fun c hc => ne_point_of_isDigit (hdigit c hc)
  have hdrop : (whole ++ '.' :: fraction).dropWhile (· != '.') = '.' :: fraction := by
    rw [List.dropWhile_append_of_pos hpoint]
    rfl
  have htake : (whole ++ '.' :: fraction).takeWhile (· != '.') = whole := by
    rw [List.takeWhile_append_of_pos hpoint]
    simp
  have hvalue : Nat.ofDigitChars 10 (whole ++ fraction) 0 =
      10 ^ fraction.length * Nat.ofDigitChars 10 whole 0 + Nat.ofDigitChars 10 fraction 0 := by
    rw [Nat.ofDigitChars_append, Nat.ofDigitChars_eq_ofDigitChars_zero]
  rw [numeral?, hdrop, htake, natural?_eq_some hwhole hdigit, hvalue]
  simp only [natural?_eq_some hfraction fun c hc => hds c (List.mem_append_right _ hc),
    Option.bind_eq_bind, Option.bind_some]
  push_cast
  congr 1
  field_simp

/-- A word that is read as a number. -/
structure IsNumeral (s : String) (x : ℚ) : Prop where
  isWord : SExpr.isWord s = true
  digit : (s.toList.head?.any Char.isDigit) = true
  value : numeral? s.toList = some x

theorem isSymbolChar_of_isDigit {c : Char} (h : c.isDigit = true) :
    SExpr.isSymbolChar c = true := by
  simp [SExpr.isSymbolChar, Char.isAlphanum, h]

theorem isNumeral_natural (n : Nat) : IsNumeral (toString n) n := by
  have hlist : (toString n).toList = digits n := by
    rw [Nat.toString_eq_ofList_toDigits, String.toList_ofList]
    rfl
  have hdigit : ∀ c ∈ digits n, c.isDigit = true := fun c => isDigit_of_mem_digits
  refine ⟨?_, ?_, ?_⟩
  · rw [SExpr.isWord, hlist]
    simpa [digits_ne_nil] using fun c hc => isSymbolChar_of_isDigit (hdigit c hc)
  · rw [hlist]
    cases hcs : digits n with
    | nil => exact absurd hcs (digits_ne_nil n)
    | cons c cs => exact hdigit c (hcs ▸ List.mem_cons_self)
  · rw [hlist, numeral?_digits (digits_ne_nil n) hdigit, digits, Nat.ofDigitChars_ten_toDigits]

theorem isNumeral_point {s : String} {whole fraction : List Char}
    (hs : s.toList = whole ++ '.' :: fraction) (hwhole : whole ≠ []) (hfraction : fraction ≠ [])
    (hds : ∀ c ∈ whole ++ fraction, c.isDigit = true) :
    IsNumeral s (Nat.ofDigitChars 10 (whole ++ fraction) 0 / 10 ^ fraction.length) := by
  refine ⟨?_, ?_, ?_⟩
  · rw [SExpr.isWord, hs, Bool.and_eq_true, List.all_eq_true]
    refine ⟨by simp, fun c hc => ?_⟩
    rcases List.mem_append.mp hc with hc | hc
    · exact isSymbolChar_of_isDigit (hds c (List.mem_append_left _ hc))
    · rcases List.mem_cons.mp hc with rfl | hc
      · decide
      · exact isSymbolChar_of_isDigit (hds c (List.mem_append_right _ hc))
  · obtain ⟨c, cs, rfl⟩ := List.exists_cons_of_ne_nil hwhole
    rw [hs]
    exact hds c (by simp)
  · rw [hs]
    exact numeral?_point hwhole hfraction hds

/-- The magnitude of a decimal is written as its value, with a place even if it has none. -/
theorem isNumeral_abs (d : Decimal) :
    IsNumeral (if d.scale = 0 then d.abs.text ++ ".0" else d.abs.text)
      (d.coefficient / 10 ^ d.scale) := by
  obtain ⟨whole, fraction, hsplit, hwhole, hlength, htext⟩ :=
    Decimal.unsignedText_eq d.coefficient d.scale
  have hdigit : ∀ c ∈ whole ++ fraction, c.isDigit = true := fun c hc =>
    isDigit_of_mem_padded (hsplit ▸ hc)
  have hvalue : Nat.ofDigitChars 10 (whole ++ fraction) 0 = d.coefficient := by
    rw [← hsplit, ofDigitChars_padded]
  have hchars : d.abs.text.toList = Decimal.unsignedText d.coefficient d.scale := by
    rw [Decimal.text, String.toList_ofList]
    rfl
  by_cases hscale : d.scale = 0
  · -- The zero after the point is no digit of the coefficient.
    obtain rfl : fraction = [] := List.eq_nil_of_length_eq_zero (hlength.trans hscale)
    have hlist : (d.abs.text ++ ".0").toList = whole ++ '.' :: ['0'] := by
      rw [String.toList_append, hchars, htext, if_pos hscale, List.append_nil]
      rfl
    have hzero : ∀ c ∈ whole ++ ['0'], c.isDigit = true := by
      intro c hc
      rcases List.mem_append.mp hc with hc | hc
      · exact hdigit c (List.mem_append_left _ hc)
      · rw [List.mem_singleton.mp hc]
        rfl
    have hpoint := isNumeral_point hlist hwhole (List.cons_ne_nil _ _) hzero
    rw [List.append_nil] at hvalue
    rw [Nat.ofDigitChars_append, hvalue] at hpoint
    rw [if_pos hscale, hscale]
    convert hpoint using 1
    simp [Nat.ofDigitChars_cons]
  · have hlist : d.abs.text.toList = whole ++ '.' :: fraction := by
      rw [hchars, htext, if_neg hscale]
    have hfraction : fraction ≠ [] := by
      rintro rfl
      exact hscale hlength.symm
    have hpoint := isNumeral_point hlist hwhole hfraction hdigit
    rw [hvalue, hlength] at hpoint
    rwa [if_neg hscale]

end

/-! ## Literals and connectives -/

namespace SExpr

variable {ν : Valuation}

theorem meaning?_numeral {s : String} {x : ℚ} (h : IsNumeral s x) :
    meaning? ν (.atom s) = some (.number x) := by
  have hne : ∀ t : String, t.toList.head?.any Char.isDigit = false → s ≠ t := by
    rintro t ht rfl
    exact absurd h.digit (by rw [ht]; decide)
  rw [meaning?, atomMeaning?, if_neg (hne "true" (by decide)), if_neg (hne "false" (by decide)),
    if_pos h.digit, h.value]
  rfl

theorem atomMeaning?_of_isPlainSymbol {s : String} (h : isPlainSymbol s = true) :
    meaning? ν (.atom s) = some (ν s) := by
  simp only [isPlainSymbol, Bool.and_eq_true, bne_iff_ne, Bool.not_eq_true'] at h
  rw [meaning?, atomMeaning?, if_neg h.1.2, if_neg h.2, if_neg (by rw [h.1.1.2]; decide)]

theorem isWord_of_isPlainSymbol {s : String} (h : isPlainSymbol s = true) : isWord s = true := by
  simp only [isPlainSymbol, Bool.and_eq_true] at h
  exact h.1.1.1

theorem isWord_knownSymbol {fact : String} (h : isWord fact = true) :
    isWord (knownSymbol fact) = true :=
  isWord_append (by decide) h

theorem isPlainSymbol_knownSymbol {fact : String} (h : isPlainSymbol fact = true) :
    isPlainSymbol (knownSymbol fact) = true := by
  have hlist : (knownSymbol fact).toList = "known.".toList ++ fact.toList := String.toList_append
  have hne : ∀ t : String, t.toList.head? ≠ some 'k' → knownSymbol fact ≠ t := by
    rintro t ht rfl
    rw [hlist] at ht
    exact ht rfl
  have hword := isWord_knownSymbol (isWord_of_isPlainSymbol h)
  simp only [isPlainSymbol, hword, hlist, Bool.and_eq_true, bne_iff_ne]
  exact ⟨⟨⟨trivial, rfl⟩, hne "true" (by decide)⟩, hne "false" (by decide)⟩

theorem meaning?_apply (operator : String) {operands : List SExpr} {ms : List Meaning}
    (h : meanings? ν operands = some ms) :
    meaning? ν (apply operator operands) = Meaning.operate? operator ms := by
  rw [apply, meaning?, h, Option.bind_some]

theorem meanings?_cons {e : SExpr} {rest : List SExpr} {m : Meaning} {ms : List Meaning}
    (h : meaning? ν e = some m) (hrest : meanings? ν rest = some ms) :
    meanings? ν (e :: rest) = some (m :: ms) := by
  rw [meanings?, h, hrest]
  rfl

theorem meanings?_one {e : SExpr} {m : Meaning} (h : meaning? ν e = some m) :
    meanings? ν [e] = some [m] :=
  meanings?_cons h rfl

theorem meanings?_two {e e' : SExpr} {m m' : Meaning} (h : meaning? ν e = some m)
    (h' : meaning? ν e' = some m') : meanings? ν [e, e'] = some [m, m'] :=
  meanings?_cons h (meanings?_one h')

theorem meaning?_signed {s : String} {x : ℚ} (h : IsNumeral s x) (negative : Bool) :
    meaning? ν (signed negative s) = some (.number (if negative then -x else x)) := by
  cases negative with
  | false => exact meaning?_numeral h
  | true => exact meaning?_apply "-" (meanings?_one (meaning?_numeral h))

@[simp] theorem meaning?_int (n : ℤ) : meaning? ν (int n) = some (.number n) := by
  rw [int, meaning?_signed (isNumeral_natural n.natAbs)]
  congr 2
  rcases lt_or_ge n 0 with h | h
  · rw [if_pos (by simpa using h), Nat.cast_natAbs, abs_of_neg h]
    push_cast
    rw [neg_neg]
  · rw [if_neg (by simpa using h), Nat.cast_natAbs, abs_of_nonneg h]

@[simp] theorem meaning?_real (d : Decimal) : meaning? ν (real d) = some (.number d.value) := by
  rw [real, meaning?_signed (isNumeral_abs d), Decimal.value, Decimal.signed]
  congr 2
  cases hnegative : d.negative with
  | false => simp
  | true =>
    by_cases hzero : d.coefficient = 0
    · simp [hzero]
    · simp [hzero, neg_div]

theorem isPlain_int (n : ℤ) : (int n).IsPlain :=
  isPlain_signed (isNumeral_natural n.natAbs).isWord _

theorem isPlain_real (d : Decimal) : (real d).IsPlain :=
  isPlain_signed (isNumeral_abs d).isWord _

theorem meanings?_truths {es : List SExpr} {bs : List Bool}
    (h : List.Forall₂ (fun e b => meaning? ν e = some (.truth b)) es bs) :
    meanings? ν es = some (bs.map .truth) := by
  induction h with
  | nil => rfl
  | cons hfirst _ ih => exact meanings?_cons hfirst ih

/-- A conjunction of one operand is written as the operand, and that of none as true. -/
theorem meaning?_join_and {es : List SExpr} {bs : List Bool}
    (h : List.Forall₂ (fun e b => meaning? ν e = some (.truth b)) es bs) :
    meaning? ν (join "and" "true" es) = some (.truth (bs.all fun b => b)) := by
  have hmeanings := meanings?_truths h
  cases h with
  | nil => rfl
  | cons hfirst hrest =>
    cases hrest with
    | nil => simpa [join] using hfirst
    | cons hsecond hrest =>
      exact (meaning?_apply "and" hmeanings).trans (Meaning.operate?_and ..)

/-- A disjunction of one operand is written as the operand, and that of none as false. -/
theorem meaning?_join_or {es : List SExpr} {bs : List Bool}
    (h : List.Forall₂ (fun e b => meaning? ν e = some (.truth b)) es bs) :
    meaning? ν (join "or" "false" es) = some (.truth (bs.any fun b => b)) := by
  have hmeanings := meanings?_truths h
  cases h with
  | nil => rfl
  | cons hfirst hrest =>
    cases hrest with
    | nil => simpa [join] using hfirst
    | cons hsecond hrest =>
      exact (meaning?_apply "or" hmeanings).trans (Meaning.operate?_or ..)

end SExpr

end Verdict
