import Verdict.Proofs.ExactReading

/-!
# Numerals

A number can be written with digits, a point among them, and a power of ten. A numeral whose value
is that of a decimal is read as a decimal of this value. With a power of ten this takes that what
stands before it is exact as well, and that the power is not beyond the places of a decimal.
-/

namespace Verdict

open Text

/-- A power of ten at the end of a numeral: a mark, a sign if one is written, and digits. -/
structure PowerOfTen where
  mark : Char
  sign : Option Char
  digits : List Char
  isMark : mark = 'e' ∨ mark = 'E'
  isSign : ∀ c ∈ sign, c = '+' ∨ c = '-'
  isDigit : ∀ c ∈ digits, c.isDigit = true
  digits_ne_nil : digits ≠ []

namespace PowerOfTen

/-- A power of ten with the small letter for its mark. -/
def lower (sign : Option Char) (digits : List Char) (hsign : ∀ c ∈ sign, c = '+' ∨ c = '-')
    (hdigits : ∀ c ∈ digits, c.isDigit = true) (hne : digits ≠ []) : PowerOfTen :=
  ⟨'e', sign, digits, .inl rfl, hsign, hdigits, hne⟩

/-- The number that the digits make. -/
def size (p : PowerOfTen) : ℕ :=
  Nat.ofDigitChars 10 p.digits 0

/-- The exponent. -/
def value (p : PowerOfTen) : ℤ :=
  if p.sign = some '-' then -p.size else p.size

/-- The characters of a power of ten. -/
def chars (p : PowerOfTen) : List Char :=
  p.mark :: (p.sign.toList ++ p.digits)

theorem of_mem_chars {p : PowerOfTen} {c : Char} (h : c ∈ p.chars) :
    c.isDigit = true ∨ c ∈ ['e', 'E', '+', '-'] := by
  rcases List.mem_cons.mp h with rfl | h
  · rcases p.isMark with hmark | hmark <;> exact .inr (by simp [hmark])
  rcases List.mem_append.mp h with h | h
  · rcases p.isSign c (Option.mem_toList.mp h) with rfl | rfl <;> exact .inr (by simp)
  · exact .inl (p.isDigit c h)

end PowerOfTen

/-- A number as it is written. -/
structure Numeral where
  negative : Bool
  whole : List Char
  /-- The digits after the point; there is no point if there are none. -/
  fraction : List Char
  power : Option PowerOfTen
  whole_ne_nil : whole ≠ []
  isDigit : ∀ c ∈ whole ++ fraction, c.isDigit = true

namespace Numeral

variable {t : Numeral}

/-- The numeral without its power of ten. -/
def plain (t : Numeral) : Numeral :=
  { t with power := none }

/-- The characters without sign and power of ten. -/
def unsignedChars (t : Numeral) : List Char :=
  t.whole ++ if t.fraction = [] then [] else '.' :: t.fraction

/-- The characters of a numeral. -/
def chars (t : Numeral) : List Char :=
  (if t.negative then ['-'] else []) ++ t.unsignedChars ++ (t.power.map (·.chars)).getD []

/-- The text of a numeral. -/
def text (t : Numeral) : String :=
  String.ofList t.chars

/-- The number that all the digits make. -/
def digits (t : Numeral) : ℕ :=
  Nat.ofDigitChars 10 (t.whole ++ t.fraction) 0

/-- The power of ten that the digits are multiplied by. -/
def exponent (t : Numeral) : ℤ :=
  (t.power.map (·.value)).getD 0 - t.fraction.length

/-- The number that is written. -/
def value (t : Numeral) : ℚ :=
  Decimal.withSign t.negative t.digits * 10 ^ t.exponent

/-! ## Values -/

theorem value_plain (t : Numeral) :
    t.plain.value = Decimal.withSign t.negative t.digits / 10 ^ t.fraction.length := by
  have hexponent : t.plain.exponent = -(t.fraction.length : ℤ) := zero_sub _
  rw [value, hexponent, zpow_neg, zpow_natCast]
  rfl

theorem value_of_power {p : PowerOfTen} (h : t.power = some p) :
    t.value = t.plain.value * 10 ^ p.value := by
  have hexponent : t.exponent = p.value + -(t.fraction.length : ℤ) := by
    rw [exponent, h, Option.map_some, Option.getD_some, sub_eq_add_neg]
  rw [value, hexponent, value_plain, zpow_add₀ (by norm_num), zpow_neg, zpow_natCast]
  ring

/-! ## Reading plain numerals -/

theorem exists_whole_cons (t : Numeral) : ∃ c rest, t.whole = c :: rest ∧ c.isDigit = true := by
  obtain ⟨c, rest, h⟩ := List.exists_cons_of_ne_nil t.whole_ne_nil
  exact ⟨c, rest, h, t.isDigit c (by simp [h])⟩

theorem readFrom_unsignedChars (h : Decimal.IsExact t.plain.value) :
    ∃ d, Decimal.readFrom t.negative 0 none false t.unsignedChars = some d ∧
      d.value = t.plain.value := by
  rw [value_plain] at h ⊢
  have hwhole : ∀ c ∈ t.whole, c.isDigit = true := fun c hc =>
    t.isDigit c (List.mem_append_left _ hc)
  have hfraction : ∀ c ∈ t.fraction, c.isDigit = true := fun c hc =>
    t.isDigit c (List.mem_append_right _ hc)
  have hdigits : t.digits = Nat.ofDigitChars 10 t.fraction (Nat.ofDigitChars 10 t.whole 0) :=
    Nat.ofDigitChars_append 0
  have hfits : Nat.ofDigitChars 10 t.whole 0 < 2 ^ 96 := by
    obtain ⟨m, s, hm, -, heq⟩ := Decimal.exists_of_isExact_div h
    have hle : Nat.ofDigitChars 10 t.whole 0 * 10 ^ t.fraction.length ≤ t.digits := by
      rw [hdigits, Nat.ofDigitChars_eq_ofDigitChars_zero (l := t.fraction), mul_comm]
      exact Nat.le_add_right _ _
    have hle' : t.digits ≤ m * 10 ^ t.fraction.length :=
      heq ▸ Nat.le_mul_of_pos_right _ (show 0 < 10 ^ s by positivity)
    exact Nat.lt_of_le_of_lt (Nat.le_of_mul_le_mul_right (hle.trans hle') (by positivity)) hm
  have hseen : (false || !t.whole.isEmpty) = true := by simp [t.whole_ne_nil]
  rw [unsignedChars, Decimal.readFrom_digits t.negative hwhole _ false (fun p hp => by cases hp)
    hfits, hseen, Option.map_none]
  by_cases hnil : t.fraction = []
  · rw [hnil, Nat.ofDigitChars_nil] at hdigits
    rw [if_pos hnil, Decimal.readFrom, if_pos rfl, hnil, hdigits]
    exact Decimal.value_of_ofParts? hfits (Nat.zero_le 28)
  · have hpoint : digit? '.' = none := rfl
    rw [if_neg hnil, Decimal.readFrom, if_neg (by simp), hpoint]
    simp only [true_and, if_true]
    rw [hdigits, ← Nat.zero_add t.fraction.length] at h ⊢
    exact Decimal.readFrom_fraction hfraction hfits (Nat.zero_le 28) h

theorem ofPlain?_plain (h : Decimal.IsExact t.plain.value) :
    ∃ d, Decimal.ofPlain? t.plain.chars = some d ∧ d.value = t.plain.value := by
  have hread := readFrom_unsignedChars h
  obtain ⟨c, rest, hwhole, hc⟩ := t.exists_whole_cons
  have hchars : t.plain.chars = (if t.negative then ['-'] else []) ++ t.unsignedChars :=
    List.append_nil _
  rw [hchars]
  cases hsign : t.negative with
  | true =>
    rw [hsign] at hread
    exact hread
  | false =>
    have hunsigned : t.unsignedChars =
        c :: (rest ++ if t.fraction = [] then [] else '.' :: t.fraction) := by
      rw [unsignedChars, hwhole, List.cons_append]
    rw [hsign, hunsigned] at hread
    rw [hunsigned]
    exact Decimal.ofPlain?_cons_of_isDigit hc _ ▸ hread

/-! ## Reading powers of ten -/

theorem chars_of_power {p : PowerOfTen} (h : t.power = some p) :
    t.chars = t.plain.chars ++ p.chars := by
  rw [chars, h, chars, plain, Option.map_none, Option.getD_none, List.append_nil]
  rfl

theorem of_mem_plain_chars {c : Char} (h : c ∈ t.plain.chars) :
    c.isDigit = true ∨ c ∈ ['-', '.'] := by
  have hplain : t.plain.chars = (if t.negative then ['-'] else []) ++ t.unsignedChars :=
    List.append_nil _
  rw [hplain, unsignedChars] at h
  rcases List.mem_append.mp h with h | h
  · split at h
    · exact .inr (by simp_all)
    · cases h
  rcases List.mem_append.mp h with h | h
  · exact .inl (t.isDigit c (List.mem_append_left _ h))
  · split at h
    · cases h
    · rcases List.mem_cons.mp h with rfl | h
      · exact .inr (by simp)
      · exact .inl (t.isDigit c (List.mem_append_right _ h))

theorem of_mem_chars {c : Char} (h : c ∈ t.chars) :
    c.isDigit = true ∨ c ∈ ['-', '.', 'e', 'E', '+'] := by
  have hplain : c ∈ t.plain.chars → c.isDigit = true ∨ c ∈ ['-', '.', 'e', 'E', '+'] := fun hc =>
    (of_mem_plain_chars hc).imp_right fun hc => List.mem_append_left ['e', 'E', '+'] hc
  cases hpower : t.power with
  | none =>
    have hchars : t.chars = t.plain.chars := by
      rw [chars, hpower]
      rfl
    exact hplain (hchars ▸ h)
  | some p =>
    have hother : ∀ c ∈ ['e', 'E', '+', '-'], c ∈ ['-', '.', 'e', 'E', '+'] := by simp
    rw [chars_of_power hpower] at h
    rcases List.mem_append.mp h with h | h
    · exact hplain h
    · exact (PowerOfTen.of_mem_chars h).imp_right (hother c)

/-- A numeral is written without blanks and commas. -/
theorem not_blank_of_mem_chars {c : Char} (h : c ∈ t.chars) : isBlank c = false ∧ c ≠ ',' := by
  have hother : ∀ c ∈ ['-', '.', 'e', 'E', '+'], isBlank c = false ∧ c ≠ ',' := by
    simp [isBlank, blankRanges]
  rcases of_mem_chars h with hc | hc
  · exact ⟨isBlank_of_isDigit hc, by rintro rfl; exact absurd hc (by decide)⟩
  · exact hother c hc

theorem unsigned?_cons_of_isDigit {c : Char} (hc : c.isDigit = true) (rest : List Char) :
    unsigned? (c :: rest) = natural? (c :: rest) := by
  unfold unsigned?
  split
  · rename_i heq
    cases heq
    exact absurd hc (by decide)
  · rfl

/-- A power of ten makes a text that is no plain decimal. -/
theorem ofPlain?_of_power {p : PowerOfTen} (h : t.power = some p) :
    Decimal.ofPlain? t.chars = none := by
  have hforeign : Decimal.IsForeign p.mark := by
    rcases p.isMark with hmark | hmark <;> rw [hmark] <;> exact ⟨rfl, by decide, by decide⟩
  have hmem : p.mark ∈ t.unsignedChars ++ p.chars := List.mem_append_right _ List.mem_cons_self
  have hread := fun negative => Decimal.readFrom_of_isForeign hforeign hmem negative 0 none false
  have hchars : t.chars = (if t.negative then ['-'] else []) ++ (t.unsignedChars ++ p.chars) := by
    rw [chars, h, List.append_assoc]
    rfl
  rw [hchars]
  cases hsign : t.negative with
  | true => exact hread true
  | false =>
    obtain ⟨c, rest, hwhole, hc⟩ := t.exists_whole_cons
    rw [unsignedChars, hwhole] at hread ⊢
    exact (Decimal.ofPlain?_cons_of_isDigit hc _).trans (hread false)

theorem takeWhile_of_power {p : PowerOfTen} (h : t.power = some p) :
    t.chars.takeWhile (fun c => !Decimal.isExponentMark c) = t.plain.chars ∧
      t.chars.dropWhile (fun c => !Decimal.isExponentMark c) = p.chars := by
  have hplain : ∀ c ∈ t.plain.chars, (!Decimal.isExponentMark c) = true := by
    intro c hc
    rcases of_mem_plain_chars hc with hc | hc
    · have hne : c ≠ 'e' ∧ c ≠ 'E' := by
        constructor <;> (rintro rfl; exact absurd hc (by decide))
      simp [Decimal.isExponentMark, hne]
    · have hother : ∀ c ∈ ['-', '.'], (!Decimal.isExponentMark c) = true :=
        List.all_eq_true.mp rfl
      exact hother c hc
  have hmark : Decimal.isExponentMark p.mark = true := by
    rcases p.isMark with hmark | hmark <;> rw [hmark] <;> rfl
  have hpower : p.chars.takeWhile (fun c => !Decimal.isExponentMark c) = [] ∧
      p.chars.dropWhile (fun c => !Decimal.isExponentMark c) = p.chars := by
    rw [PowerOfTen.chars, List.takeWhile_cons_of_neg (by simp [hmark]),
      List.dropWhile_cons_of_neg (by simp [hmark])]
    exact ⟨rfl, rfl⟩
  rw [chars_of_power h, List.takeWhile_append_of_pos hplain, List.dropWhile_append_of_pos hplain,
    hpower.1, hpower.2]
  exact ⟨List.append_nil _, rfl⟩

/-- With a power of ten within the places of a decimal, an exact numeral is read exactly. -/
theorem ofScientific?_of_power {p : PowerOfTen} (h : t.power = some p) (hsize : p.size ≤ 28)
    (hplain : Decimal.IsExact t.plain.value) (hexact : Decimal.IsExact t.value) :
    ∃ d, Decimal.ofScientific? t.chars = some d ∧ d.value = t.value := by
  obtain ⟨base, hbase, hvalue⟩ := ofPlain?_plain hplain
  have hnatural : natural? p.digits = some p.size := natural?_eq_some p.digits_ne_nil p.isDigit
  rw [value_of_power h, ← hvalue] at hexact ⊢
  rw [Decimal.ofScientific?, (takeWhile_of_power h).1, (takeWhile_of_power h).2, hbase,
    PowerOfTen.chars, List.drop_one, List.tail_cons, Option.bind_eq_bind, Option.bind_some]
  have hup : p.value = p.size → Decimal.IsExact (base.value * 10 ^ p.value) →
      ∃ d, base.shiftUp? p.size = some d ∧ d.value = base.value * 10 ^ p.value := by
    intro hp hexact
    rw [hp, zpow_natCast] at hexact ⊢
    exact Decimal.shiftUp?_of_isExact hsize hexact
  obtain ⟨c, rest, hdigits⟩ := List.exists_cons_of_ne_nil p.digits_ne_nil
  have hc : c.isDigit = true := p.isDigit c (by simp [hdigits])
  have hunsigned : unsigned? p.digits = some p.size := by
    rw [hdigits, unsigned?_cons_of_isDigit hc, ← hdigits, hnatural]
  cases hsign : p.sign with
  | none =>
    rw [Option.toList_none, List.nil_append]
    split
    · rename_i heq
      rw [hdigits] at heq
      cases heq
      exact absurd hc (by decide)
    · rw [hunsigned]
      exact hup (if_neg (by simp [hsign])) hexact
  | some sign =>
    rcases p.isSign sign hsign with rfl | rfl
    · change ∃ d, ((unsigned? ('+' :: p.digits)).bind fun e => base.shiftUp? e) = some d ∧ _
      rw [show unsigned? ('+' :: p.digits) = some p.size from hnatural]
      exact hup (if_neg (by simp [hsign])) hexact
    · have hp : p.value = -p.size := if_pos hsign
      change ∃ d, ((unsigned? p.digits).bind fun e => base.shiftDown? e) = some d ∧ _
      rw [hp, zpow_neg, zpow_natCast, ← div_eq_mul_inv] at hexact ⊢
      rw [hunsigned]
      exact Decimal.shiftDown?_of_isExact hsize hexact

/-- The power of ten, if there is one, is within the places of a decimal, and what stands before it
is exact. -/
def PowerFits (t : Numeral) : Prop :=
  ∀ p ∈ t.power, p.size ≤ 28 ∧ Decimal.IsExact t.plain.value

/-- The text of an exact numeral is read as a decimal of its value. -/
theorem ofChars?_chars (hexact : Decimal.IsExact t.value) (hpower : t.PowerFits) :
    ∃ d, Decimal.ofChars? t.chars = some d ∧ d.value = t.value := by
  have htrim : trim t.chars = t.chars := trim_eq_self fun c hc => (not_blank_of_mem_chars hc).1
  have hfilter : t.chars.filter (· != ',') = t.chars :=
    List.filter_eq_self.mpr fun c hc => bne_iff_ne.mpr (not_blank_of_mem_chars hc).2
  rw [Decimal.ofChars?, htrim]
  simp only [hfilter]
  cases h : t.power with
  | none =>
    have hplain : t.plain = t := by rw [plain, ← h]
    obtain ⟨d, hd, hvalue⟩ := ofPlain?_plain (t := t) (hplain.symm ▸ hexact)
    rw [hplain] at hd hvalue
    exact ⟨d, by rw [hd, Option.some_or], hvalue⟩
  | some p =>
    obtain ⟨hsize, hplain⟩ := hpower p h
    rw [ofPlain?_of_power h, Option.none_or]
    exact ofScientific?_of_power h hsize hplain hexact

end Numeral

end Verdict
