import Verdict.Decimal.Text
import Verdict.Proofs.Digits

/-!
# Reading a written decimal

The text of a decimal is read as the same decimal, with the same places. Only the sign of a zero
is lost, since a text never gives one. The digits are read one by one; the coefficient that they
make never outgrows the one that was written, so the limits of the reader are not met.
-/

namespace Verdict.Decimal

open Text

/-- The decimal without the sign that a zero may have. -/
def plain (d : Decimal) : Decimal :=
  ofParts d.negative d.coefficient d.scale d.coefficient_lt d.scale_le

/-- A zero with a sign. -/
def isNegativeZero (d : Decimal) : Bool :=
  d.negative && d.coefficient == 0

/-- The sign of a zero is all that gets lost. -/
theorem plain_eq_self_iff (d : Decimal) : d.plain = d ↔ d.isNegativeZero = false := by
  obtain ⟨negative, coefficient, scale, hc, hs⟩ := d
  cases negative <;> simp [plain, ofParts, isNegativeZero]

@[simp] theorem units_plain (d : Decimal) : d.plain.units = d.units := by
  simp only [units, plain, scale_ofParts, signed_ofParts]
  rfl

@[simp] theorem ofParts?_eq_plain (d : Decimal) :
    ofParts? d.negative d.coefficient d.scale = some d.plain :=
  dif_pos ⟨d.coefficient_lt, d.scale_le⟩

/-! ## The shape of the text -/

/-- The digits of a coefficient, split before the last places. -/
theorem unsignedText_eq (coefficient scale : Nat) :
    ∃ whole fraction, padded (scale + 1) coefficient = whole ++ fraction ∧ whole ≠ [] ∧
      fraction.length = scale ∧
      unsignedText coefficient scale =
        whole ++ (if scale = 0 then [] else '.' :: fraction) := by
  have hlen : scale + 1 ≤ (padded (scale + 1) coefficient).length := by
    rw [length_padded]
    omega
  refine ⟨(padded (scale + 1) coefficient).take ((padded (scale + 1) coefficient).length - scale),
    (padded (scale + 1) coefficient).drop ((padded (scale + 1) coefficient).length - scale),
    (List.take_append_drop _ _).symm, ?_, ?_, ?_⟩
  · intro hnil
    have := congrArg List.length hnil
    rw [List.length_take, List.length_nil] at this
    omega
  · rw [List.length_drop]
    omega
  · unfold unsignedText
    by_cases h : scale = 0
    · subst h
      simp
    · simp [h]

/-- A decimal is written with digits, a point and a sign. -/
theorem isDigit_of_mem_unsignedText {c : Char} {coefficient scale : Nat}
    (h : c ∈ unsignedText coefficient scale) : c.isDigit = true ∨ c = '.' := by
  obtain ⟨whole, fraction, hsplit, -, -, htext⟩ := unsignedText_eq coefficient scale
  have hdigit : ∀ c ∈ whole ++ fraction, c.isDigit = true := fun c hc =>
    isDigit_of_mem_padded (hsplit ▸ hc)
  rw [htext] at h
  rcases List.mem_append.mp h with h | h
  · exact Or.inl (hdigit c (List.mem_append_left _ h))
  · split at h
    · exact absurd h List.not_mem_nil
    · rcases List.mem_cons.mp h with h | h
      · exact Or.inr h
      · exact Or.inl (hdigit c (List.mem_append_right _ h))

/-! ## Reading digits -/

theorem digit?_of_isDigit {c : Char} (h : c.isDigit = true) :
    digit? c = some (c.toNat - '0'.toNat) :=
  if_pos h

theorem le_ofDigitChars (ds : List Char) (n : Nat) : n ≤ Nat.ofDigitChars 10 ds n := by
  rw [Nat.ofDigitChars_eq_ofDigitChars_zero]
  have hpow : 0 < 10 ^ ds.length := Nat.pow_pos (by decide)
  have : n ≤ 10 ^ ds.length * n := Nat.le_mul_of_pos_left n hpow
  omega

/-- Digits that fit are taken into the coefficient, and after the point they count as places. -/
theorem readFrom_digits (negative : Bool) {ds : List Char} (hds : ∀ c ∈ ds, c.isDigit = true)
    (rest : List Char) {coefficient : Nat} {places : Option Nat} (seen : Bool)
    (hplaces : ∀ p ∈ places, p + ds.length ≤ 28)
    (hlt : Nat.ofDigitChars 10 ds coefficient < 2 ^ 96) :
    readFrom negative coefficient places seen (ds ++ rest) =
      readFrom negative (Nat.ofDigitChars 10 ds coefficient) (places.map (· + ds.length))
        (seen || !ds.isEmpty) rest := by
  induction ds generalizing coefficient places seen with
  | nil => cases places <;> simp
  | cons c ds ih =>
    have hc : c.isDigit = true := hds c List.mem_cons_self
    have hnot : places ≠ some 28 := by
      rintro rfl
      have := hplaces 28 rfl
      rw [List.length_cons] at this
      omega
    rw [Nat.ofDigitChars_cons, Nat.mul_comm] at hlt
    have hfits : coefficient * 10 + (c.toNat - '0'.toNat) < 2 ^ 96 :=
      Nat.lt_of_le_of_lt (le_ofDigitChars ds _) hlt
    have hplaces' : ∀ p ∈ places.map (· + 1), p + ds.length ≤ 28 := by
      intro p hp
      obtain ⟨q, hq, rfl⟩ := Option.map_eq_some_iff.mp hp
      have := hplaces q hq
      rw [List.length_cons] at this
      omega
    rw [List.cons_append, readFrom, if_neg hnot, digit?_of_isDigit hc]
    simp only [hfits, if_true]
    rw [ih (fun d hd => hds d (List.mem_cons_of_mem _ hd)) true hplaces' hlt,
      Nat.ofDigitChars_cons, Nat.mul_comm 10]
    cases places <;> simp [Nat.add_assoc, Nat.add_comm 1]

/-- The text of a coefficient is read as that coefficient with its places. -/
theorem readFrom_unsignedText (d : Decimal) :
    readFrom d.negative 0 none false (unsignedText d.coefficient d.scale) = some d.plain := by
  obtain ⟨whole, fraction, hsplit, hwhole, hlength, htext⟩ :=
    unsignedText_eq d.coefficient d.scale
  have hdigit : ∀ c ∈ whole ++ fraction, c.isDigit = true := fun c hc =>
    isDigit_of_mem_padded (hsplit ▸ hc)
  have hvalue : Nat.ofDigitChars 10 fraction (Nat.ofDigitChars 10 whole 0) = d.coefficient := by
    rw [← Nat.ofDigitChars_append, ← hsplit, ofDigitChars_padded]
  have hlt : Nat.ofDigitChars 10 whole 0 < 2 ^ 96 :=
    Nat.lt_of_le_of_lt (hvalue ▸ le_ofDigitChars fraction _) d.coefficient_lt
  rw [htext, readFrom_digits d.negative (fun c hc => hdigit c (List.mem_append_left _ hc)) _ false
    (fun p hp => by cases hp) hlt]
  by_cases hscale : d.scale = 0
  · have hnil : fraction = [] := List.eq_nil_of_length_eq_zero (hlength.trans hscale)
    rw [hnil, Nat.ofDigitChars_nil] at hvalue
    rw [if_pos hscale, hvalue, ← ofParts?_eq_plain, hscale]
    simp [readFrom, hwhole]
  · have hpoint : digit? '.' = none := rfl
    have hplaces : ∀ p ∈ some 0, p + fraction.length ≤ 28 := by
      intro p hp
      have := d.scale_le
      cases hp
      omega
    have hfraction := readFrom_digits d.negative
      (fun c hc => hdigit c (List.mem_append_right _ hc)) [] true hplaces
      (hvalue ▸ d.coefficient_lt)
    rw [if_neg hscale, Option.map_none, readFrom, if_neg (by simp), hpoint]
    simp only [true_and, if_true]
    rw [List.append_nil, hvalue, hlength, Option.map_some, Nat.zero_add] at hfraction
    have hseen : (false || !whole.isEmpty) = true := by simp [hwhole]
    rw [hseen, hfraction, Bool.true_or, readFrom, if_pos rfl]
    exact ofParts?_eq_plain d

/-- A coefficient is written with a digit in front, so its text has no sign. -/
theorem unsignedText_eq_cons (coefficient scale : Nat) :
    ∃ c rest, unsignedText coefficient scale = c :: rest ∧ c.isDigit = true := by
  obtain ⟨whole, fraction, hsplit, hwhole, -, htext⟩ := unsignedText_eq coefficient scale
  cases whole with
  | nil => exact absurd rfl hwhole
  | cons c whole =>
    have hmem : c ∈ padded (scale + 1) coefficient := by
      rw [hsplit]
      exact List.mem_cons_self
    exact ⟨c, _, htext, isDigit_of_mem_padded hmem⟩

/-- A text that begins with a digit has no sign. -/
theorem ofPlain?_cons_of_isDigit {c : Char} (hc : c.isDigit = true) (rest : List Char) :
    ofPlain? (c :: rest) = readFrom false 0 none false (c :: rest) := by
  unfold ofPlain?
  split
  · rename_i heq
    cases heq
    exact absurd hc (by decide)
  · rename_i heq
    cases heq
    exact absurd hc (by decide)
  · rfl

theorem ofPlain?_chars (d : Decimal) : ofPlain? d.chars = some d.plain := by
  rw [← readFrom_unsignedText]
  cases hsign : d.negative with
  | true => simp [chars, hsign, ofPlain?]
  | false =>
    obtain ⟨c, rest, htext, hc⟩ := unsignedText_eq_cons d.coefficient d.scale
    have hchars : d.chars = c :: rest := by rw [← htext, chars, hsign, if_neg Bool.false_ne_true]
    rw [hchars, htext, ofPlain?_cons_of_isDigit hc]

/-- The characters of a decimal are neither blank nor separators. -/
theorem not_blank_of_mem_chars {d : Decimal} {c : Char} (h : c ∈ d.chars) :
    isBlank c = false ∧ c ≠ ',' := by
  have hmem : c = '-' ∨ c.isDigit = true ∨ c = '.' := by
    unfold chars at h
    split at h
    · exact (List.mem_cons.mp h).imp_right isDigit_of_mem_unsignedText
    · exact Or.inr (isDigit_of_mem_unsignedText h)
  rcases hmem with rfl | hdigit | rfl
  · decide
  · exact ⟨isBlank_of_isDigit hdigit, by rintro rfl; exact absurd hdigit (by decide)⟩
  · decide

/-- A written decimal is read as itself, but for the sign of a zero. -/
@[simp] theorem ofChars?_chars (d : Decimal) : ofChars? d.chars = some d.plain := by
  have htrim : trim d.chars = d.chars := trim_eq_self fun c hc => (not_blank_of_mem_chars hc).1
  have hfilter : d.chars.filter (· != ',') = d.chars :=
    List.filter_eq_self.mpr fun c hc => bne_iff_ne.mpr (not_blank_of_mem_chars hc).2
  rw [ofChars?, htrim]
  simp only [hfilter, ofPlain?_chars, Option.some_or]

end Verdict.Decimal
