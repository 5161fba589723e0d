import Verdict.Proofs.ExactScaling
import Verdict.Proofs.NumberText
import Verdict.Proofs.ShortestDigits
import Verdict.Request.Field

/-!
# The digits of numbers in documents

A number of a document is written again before a decimal is read from it. A whole number of 64 bits
is written with the digits that it has. All other numbers pass through a binary number. They come
out with the same value if they have no more than fifteen digits and nothing but the result of their
scaling is rounded.
-/

namespace Verdict

open Text

namespace Numeral

variable {t : Numeral}

theorem value_of_digits (n k : ℕ) (e : ℤ) (hdigits : t.digits = n * 10 ^ k)
    (hexponent : t.exponent = e - k) : t.value = Decimal.withSign t.negative n * 10 ^ e := by
  rw [value, hdigits, hexponent, Decimal.withSign_mul, zpow_sub₀ (by norm_num), zpow_natCast]
  push_cast
  field_simp

theorem value_of_digits_zero (h : t.digits = 0) : t.value = 0 := by
  rw [value, h]
  simp [Decimal.withSign]

/-- A numeral without a power of ten. -/
theorem powerFits_of_none (h : t.power = none) : t.PowerFits := by
  rw [PowerFits, h]
  exact nofun

/-! ## Whole numbers -/

/-- The numeral that is written for a whole number. -/
def ofInt (n : ℤ) : Numeral where
  negative := n < 0
  whole := Text.digits n.natAbs
  fraction := []
  power := none
  whole_ne_nil := digits_ne_nil n.natAbs
  isDigit := fun _ hc => isDigit_of_mem_digits (List.append_nil (Text.digits n.natAbs) ▸ hc)

theorem chars_ofInt (n : ℤ) : (ofInt n).chars = (toString n).toList := by
  cases n with
  | ofNat n =>
    have htext : (toString (Int.ofNat n)).toList = Text.digits n := Nat.toList_repr
    rw [htext]
    simp [chars, unsignedChars, ofInt]
  | negSucc n =>
    have hsign : Int.negSucc n < 0 := Int.negSucc_lt_zero n
    have htext : (toString (Int.negSucc n)).toList = '-' :: Text.digits (n + 1) := by
      rw [Text.digits, ← Nat.toList_repr]
      exact String.toList_append
    rw [htext]
    simp [chars, unsignedChars, ofInt, hsign]

theorem value_ofInt (n : ℤ) : (ofInt n).value = n := by
  have hdigits : (ofInt n).digits = n.natAbs * 10 ^ 0 := by
    rw [digits, ofInt, List.append_nil, pow_zero, mul_one]
    exact Nat.ofDigitChars_ten_toDigits
  rw [value_of_digits n.natAbs 0 0 hdigits (by simp [exponent, ofInt]), zpow_zero, mul_one, ofInt,
    Decimal.withSign]
  by_cases hsign : n < 0
  · simp [hsign, abs_of_neg]
  · simp [hsign, abs_of_nonneg (not_lt.mp hsign)]

/-- A power of ten that is written with its sign. -/
def signedPower (e : ℤ) : PowerOfTen :=
  .lower (some (if 0 ≤ e then '+' else '-')) (Text.digits e.natAbs)
    (by
      intro c hc
      rw [← Option.some.inj hc]
      split <;> simp)
    (fun _ hc => isDigit_of_mem_digits hc) (digits_ne_nil e.natAbs)

theorem size_signedPower (e : ℤ) : (signedPower e).size = e.natAbs :=
  Nat.ofDigitChars_ten_toDigits

theorem value_signedPower (e : ℤ) : (signedPower e).value = e := by
  rw [PowerOfTen.value, size_signedPower, signedPower, PowerOfTen.lower]
  by_cases hsign : 0 ≤ e
  · simp [hsign]
  · simp [hsign, abs_of_neg (not_le.mp hsign)]

end Numeral

namespace Binary64

open Numeral

variable {x : Binary64}

/-! ## Binary numbers -/

section Layouts

variable {ds : List Char} {n : ℕ} {e : ℤ} {negative : Bool}

theorem isDigit_of_mem_replicate {k : ℕ} {c : Char} (h : c ∈ List.replicate k '0') :
    c.isDigit = true := by
  rw [(List.mem_replicate.mp h).2]
  rfl

/-- Digits with zeros after them, and a point and one more zero. -/
theorem exists_padded (hds : ∀ c ∈ ds, c.isDigit = true) (hne : ds ≠ [])
    (hread : Nat.ofDigitChars 10 ds 0 = n) (he : 0 ≤ e) :
    ∃ t : Numeral, t.chars =
        (if negative then ['-'] else []) ++ ds ++ List.replicate e.toNat '0' ++ ['.', '0'] ∧
      t.PowerFits ∧ t.value = Decimal.withSign negative n * 10 ^ e := by
  obtain ⟨k, rfl⟩ := Int.eq_ofNat_of_zero_le he
  rw [Int.toNat_natCast]
  have hdigit : ∀ c ∈ ds ++ List.replicate k '0' ++ ['0'], c.isDigit = true := by
    intro c hc
    rw [List.append_assoc, ← List.replicate_succ'] at hc
    exact (List.mem_append.mp hc).elim (hds c) isDigit_of_mem_replicate
  refine ⟨⟨negative, ds ++ List.replicate k '0', ['0'], none, by simp [hne], hdigit⟩,
    by simp [Numeral.chars, unsignedChars], powerFits_of_none rfl, ?_⟩
  refine value_of_digits n (k + 1) k ?_ ?_
  · rw [Numeral.digits, List.append_assoc, ← List.replicate_succ', Nat.ofDigitChars_append, hread,
      Nat.ofDigitChars_replicate_zero, Nat.mul_comm]
  · simp [exponent]

/-- Digits with a point among them. -/
theorem exists_pointed (hds : ∀ c ∈ ds, c.isDigit = true) (hread : Nat.ofDigitChars 10 ds 0 = n)
    (he : e < 0) {p : ℤ} (hp : p = ds.length + e) (hpos : 0 < p) :
    ∃ t : Numeral, t.chars =
        (if negative then ['-'] else []) ++ ds.take p.toNat ++ '.' :: ds.drop p.toNat ∧
      t.PowerFits ∧ t.value = Decimal.withSign negative n * 10 ^ e := by
  have hlength : (ds.drop p.toNat).length = -e := by
    rw [List.length_drop]
    omega
  have hwhole : ds.take p.toNat ≠ [] := by
    rw [← List.length_pos_iff, List.length_take]
    omega
  have hfraction : ds.drop p.toNat ≠ [] := by
    rw [← List.length_pos_iff]
    omega
  refine ⟨⟨negative, ds.take p.toNat, ds.drop p.toNat, none, hwhole, ?_⟩,
    by simp [Numeral.chars, unsignedChars, hfraction], powerFits_of_none rfl, ?_⟩
  · rwa [List.take_append_drop]
  · refine value_of_digits n 0 e ?_ ?_
    · rw [Numeral.digits, List.take_append_drop, hread, pow_zero, mul_one]
    · simp only [exponent, hlength, Option.map_none, Option.getD_none]
      omega

/-- Digits after zeros, with a point after the first zero. -/
theorem exists_leading (hds : ∀ c ∈ ds, c.isDigit = true) (hne : ds ≠ [])
    (hread : Nat.ofDigitChars 10 ds 0 = n) {p : ℤ} (hp : p = ds.length + e) (hle : p ≤ 0) :
    ∃ t : Numeral, t.chars = (if negative then ['-'] else []) ++
        '0' :: '.' :: List.replicate (-p).toNat '0' ++ ds ∧
      t.PowerFits ∧ t.value = Decimal.withSign negative n * 10 ^ e := by
  have hdigit : ∀ c ∈ ['0'] ++ (List.replicate (-p).toNat '0' ++ ds), c.isDigit = true := by
    intro c hc
    rw [← List.append_assoc, List.singleton_append, ← List.replicate_succ] at hc
    exact (List.mem_append.mp hc).elim isDigit_of_mem_replicate (hds c)
  refine ⟨⟨negative, ['0'], List.replicate (-p).toNat '0' ++ ds, none, by simp, hdigit⟩,
    by simp [Numeral.chars, unsignedChars, hne], powerFits_of_none rfl, ?_⟩
  refine value_of_digits n 0 e ?_ ?_
  · rw [Numeral.digits, ← List.append_assoc, List.singleton_append, ← List.replicate_succ,
      Nat.ofDigitChars_append, Nat.ofDigitChars_replicate_zero, Nat.mul_zero, hread, pow_zero,
      mul_one]
  · simp [exponent]
    omega

/-- Digits with a point after the first of them, and a power of ten. -/
theorem exists_scientific (hds : ∀ c ∈ ds, c.isDigit = true) (hne : ds ≠ [])
    (hread : Nat.ofDigitChars 10 ds 0 = n) (hlength : ds.length ≤ 16) (hlt : n < 10 ^ 16) {p : ℤ}
    (hp : p = ds.length + e) (hlow : -28 < p) (hhigh : p ≤ 29) :
    ∃ t : Numeral, t.chars = (if negative then ['-'] else []) ++ ds.take 1 ++
        (if ds.length = 1 then [] else '.' :: ds.drop 1) ++
          'e' :: (if 0 < p then '+' else '-') :: Text.digits (p - 1).natAbs ∧
      t.PowerFits ∧ t.value = Decimal.withSign negative n * 10 ^ e := by
  have hpos : 0 < ds.length := List.length_pos_iff.mpr hne
  have hwhole : ds.take 1 ≠ [] := by
    rw [← List.length_pos_iff, List.length_take]
    omega
  have hfraction : ds.drop 1 = [] ↔ ds.length = 1 := by
    rw [List.drop_eq_nil_iff]
    omega
  have hsign : 0 ≤ p - 1 ↔ 0 < p := by omega
  have hdigits : Nat.ofDigitChars 10 (ds.take 1 ++ ds.drop 1) 0 = n := by
    rw [List.take_append_drop, hread]
  refine ⟨⟨negative, ds.take 1, ds.drop 1, some (signedPower (p - 1)), hwhole, ?_⟩, ?_, ?_, ?_⟩
  · rwa [List.take_append_drop]
  · simp only [Numeral.chars, unsignedChars, signedPower, PowerOfTen.lower, PowerOfTen.chars,
      hfraction, hsign, Option.map_some, Option.getD_some, Option.toList_some, List.append_assoc,
      List.singleton_append]
  · rintro _ ⟨⟩
    rw [size_signedPower]
    have hcoefficient : n < 2 ^ 96 := by omega
    have hscale : (ds.drop 1).length ≤ 28 := by rw [List.length_drop]; omega
    obtain ⟨d, -, hd⟩ : ∃ d, Decimal.ofParts? negative n (ds.drop 1).length = some d ∧
        d.value = Decimal.withSign negative n / 10 ^ (ds.drop 1).length :=
      Decimal.value_of_ofParts? hcoefficient hscale
    exact ⟨by omega, d, hd.trans (by rw [value_plain, Numeral.digits, hdigits])⟩
  · refine value_of_digits n 0 e (by rw [Numeral.digits, hdigits, pow_zero, mul_one]) ?_
    rw [exponent, Option.map_some, Option.getD_some, value_signedPower, List.length_drop]
    omega

end Layouts

/-- What is written for a binary number is a numeral of the value of its shortest digits. -/
theorem exists_numeral (hx : x.significand ≠ 0) (hpos : 0 < x.shortest.value)
    (hlt : x.shortest.value < 10 ^ 16)
    (hlow : (10 : ℚ) ^ (-28 : ℤ) ≤ x.shortest.value * 10 ^ x.shortest.exponent)
    (hhigh : (x.shortest.value * 10 ^ x.shortest.exponent : ℚ) < 10 ^ (29 : ℤ)) :
    ∃ t : Numeral, t.chars = x.chars ∧ t.PowerFits ∧
      t.value = Decimal.withSign x.negative x.shortest.value * 10 ^ x.shortest.exponent := by
  have hlength : (Text.digits x.shortest.value).length ≤ 16 :=
    (Nat.length_toDigits_le_iff (by decide) (by decide)).mpr hlt
  have hdigit : ∀ c ∈ Text.digits x.shortest.value, c.isDigit = true :=
    fun _ => isDigit_of_mem_digits
  have hne := digits_ne_nil x.shortest.value
  have hread : Nat.ofDigitChars 10 (Text.digits x.shortest.value) 0 = x.shortest.value :=
    Nat.ofDigitChars_ten_toDigits
  obtain ⟨hbelow, habove⟩ := scaled_bounds hpos x.shortest.exponent
  have hbelow := (zpow_lt_zpow_iff_right₀ (by norm_num)).mp (hbelow.trans_lt hhigh)
  have habove := (zpow_lt_zpow_iff_right₀ (by norm_num)).mp (hlow.trans_lt habove)
  unfold chars
  dsimp only
  rw [if_neg hx]
  split
  · rename_i hwhole
    exact exists_padded hdigit hne hread hwhole.1
  rename_i hwhole
  split
  · rename_i hpoint
    exact exists_pointed hdigit hread (by omega) rfl hpoint.1
  rename_i hpoint
  split
  · rename_i hleading
    exact exists_leading hdigit hne hread rfl hleading.2
  · exact exists_scientific hdigit hne hread hlength hlt rfl habove (by omega)

/-- Zero is written with a point and a zero. -/
theorem exists_numeral_zero (negative : Bool) :
    ∃ t : Numeral, t.chars = (⟨negative, 0, 0⟩ : Binary64).chars ∧ t.PowerFits ∧ t.value = 0 := by
  refine ⟨⟨negative, ['0'], ['0'], none, by simp, List.all_eq_true.mp rfl⟩,
    by cases negative <;> rfl, powerFits_of_none rfl, value_of_digits_zero rfl⟩

end Binary64

namespace Numeral

variable {t : Numeral}

/-! ## Reading and writing -/

/-- The digits make a number of at most fifteen digits and zeros after them. This number and the
power of ten are numbers of the binary format. -/
structure IsShort (t : Numeral) : Prop where
  digits_eq : ∃ n k, n < 10 ^ 15 ∧ t.digits = n * 10 ^ k
  digits_lt : t.digits < 2 ^ 53
  exponent_le : t.exponent.natAbs ≤ 22

/-- A whole number of 64 bits, with or without a sign, with neither a point nor a power of ten. -/
def IsWord (t : Numeral) : Prop :=
  t.fraction = [] ∧ t.power = none ∧ t.digits < (if t.negative then 2 ^ 63 + 1 else 2 ^ 64)

theorem isShort_of_zero (hword : t.IsWord) (hzero : t.digits = 0) : t.IsShort where
  digits_eq := ⟨0, 0, by decide, by rw [hzero, Nat.zero_mul]⟩
  digits_lt := by rw [hzero]; decide
  exponent_le := by simp [exponent, hword.1, hword.2.1]

/-- A decimal with the given value is read from a value of a document. -/
def ReadAs (v : Json) (x : ℚ) : Prop :=
  ∃ d, Decimal.ofJson? v = some d ∧ d.value = x

theorem readAs_of_chars {v : Json} (hchars : Decimal.ofJson? v = Decimal.ofChars? t.chars)
    (hexact : Decimal.IsExact t.value) (hpower : t.PowerFits) : ReadAs v t.value := by
  obtain ⟨d, hd, hvalue⟩ := ofChars?_chars hexact hpower
  exact ⟨d, hchars.trans hd, hvalue⟩

/-- Between quotation marks, a numeral is read exactly. -/
theorem readAs_string (hexact : Decimal.IsExact t.value) (hpower : t.PowerFits) :
    ReadAs (.string t.text) t.value :=
  readAs_of_chars (by rw [Decimal.ofJson?, text, String.toList_ofList]) hexact hpower

/-- A whole number is read exactly. -/
theorem readAs_integer {n : ℤ} (hexact : Decimal.IsExact n) : ReadAs (.integer n) n := by
  have hchars : Decimal.ofJson? (.integer n) = Decimal.ofChars? (ofInt n).chars := by
    rw [Decimal.ofJson?, chars_ofInt]
  have hread := readAs_of_chars hchars (by rwa [value_ofInt]) (powerFits_of_none rfl)
  rwa [value_ofInt] at hread

/-- The binary number for a short numeral is read exactly. -/
theorem readAs_float (hshort : t.IsShort) (hexact : Decimal.IsExact t.value) :
    ∃ x, Binary64.ofDecimal? t.negative t.digits t.exponent = some x ∧
      ReadAs (.float x) t.value := by
  rcases Nat.eq_zero_or_pos t.digits with hzero | hpos
  · obtain ⟨u, hchars, hpower, hvalue⟩ := Binary64.exists_numeral_zero t.negative
    have hvalue' : t.value = u.value := (value_of_digits_zero hzero).trans hvalue.symm
    rw [hvalue'] at hexact ⊢
    exact ⟨⟨t.negative, 0, 0⟩, by rw [hzero, Binary64.ofDecimal?_zero _ hshort.exponent_le],
      readAs_of_chars (by rw [hchars, Decimal.ofJson?]) hexact hpower⟩
  · obtain ⟨n, k, hn, hdigits⟩ := hshort.digits_eq
    obtain ⟨hlow, hhigh⟩ := Decimal.bounds_of_isExact hpos hexact
    obtain ⟨x, hx, hsign, hnormal, hcovers⟩ := Binary64.ofDecimal?_spec t.negative hpos
      hshort.digits_lt hshort.exponent_le hlow hhigh
    -- the zeros at the end of the digits belong to the power of ten
    have hsplit : (t.digits * 10 ^ t.exponent : ℚ) = n * 10 ^ (k + t.exponent) := by
      rw [hdigits, zpow_add₀ (by norm_num), zpow_natCast]
      push_cast
      ring
    rw [hsplit] at hcovers
    obtain ⟨hshortest, hlt⟩ := Binary64.shortest_spec hnormal hn hcovers
    rw [← hsplit] at hshortest
    have hne : x.significand ≠ 0 := by
      have hle := hnormal.le_significand
      omega
    have hpos' : 0 < x.shortest.value := by
      refine Nat.pos_of_ne_zero fun hzero => ?_
      rw [hzero, Nat.cast_zero, zero_mul] at hshortest
      have hvalue : (0 : ℚ) < t.digits * 10 ^ t.exponent := by positivity
      exact absurd hshortest hvalue.ne
    obtain ⟨u, hchars, hpower, hvalue⟩ := Binary64.exists_numeral hne hpos' hlt
      (hshortest ▸ hlow) (hshortest ▸ hhigh)
    -- what is written again is another numeral, but one of the same value
    have hvalue' : t.value = u.value := by
      rw [hvalue, hsign, value, Decimal.withSign_mul_congr hshortest]
    rw [hvalue'] at hexact ⊢
    exact ⟨x, hx, readAs_of_chars (by rw [hchars, Decimal.ofJson?]) hexact hpower⟩

/-- A whole number of 64 bits is kept as it is, and everything else goes through a binary number.
So does the whole number zero with a minus sign. -/
theorem json?_cases (t : Numeral) :
    (t.json? = some (.integer (Decimal.withSign t.negative t.digits)) ∧ t.exponent = 0) ∨
      (t.json? = (Json.Scan.floatValue? t.negative t.whole t.fraction
          ((t.power.map (·.value)).getD 0)).map .float ∧ (t.IsWord → t.digits = 0)) := by
  have hnopower : t.power.map (·.value) = none ↔ t.power = none := Option.map_eq_none_iff
  rw [json?, Json.Scan.numberValue?]
  simp only [List.isEmpty_iff, hnopower]
  split
  · rename_i hplain
    have hexponent : t.exponent = 0 := by simp [exponent, hplain]
    have hwhole : Nat.ofDigitChars 10 t.whole 0 = t.digits := by
      rw [digits, hplain.1, List.append_nil]
    rw [hwhole]
    cases hsign : t.negative with
    | true =>
      by_cases hfits : 0 < t.digits ∧ t.digits ≤ 2 ^ 63
      · exact .inl ⟨if_pos ⟨rfl, hfits⟩, hexponent⟩
      · refine .inr ⟨(if_neg fun h => hfits h.2).trans (if_neg fun h => h.1 rfl), fun hword => ?_⟩
        have hlt := hword.2.2
        rw [hsign, if_pos rfl] at hlt
        omega
    | false =>
      by_cases hfits : t.digits < 2 ^ 64
      · exact .inl ⟨(if_neg (by simp)).trans (if_pos ⟨Bool.false_ne_true, hfits⟩), hexponent⟩
      · refine .inr ⟨(if_neg (by simp)).trans (if_neg fun h => hfits h.2), fun hword => ?_⟩
        have hlt := hword.2.2
        rw [hsign, if_neg Bool.false_ne_true] at hlt
        exact absurd hlt hfits
  · rename_i hplain
    exact .inr ⟨rfl, fun hword => absurd ⟨hword.1, hword.2.1⟩ hplain⟩

theorem kind_of_json? {v : Json} (h : t.json? = some v) : v.kind = .number := by
  rcases json?_cases t with ⟨hjson, -⟩ | ⟨hjson, -⟩
  · rw [hjson] at h
    cases h
    rfl
  · rw [hjson] at h
    obtain ⟨x, -, rfl⟩ := Option.map_eq_some_iff.mp h
    rfl

/-- The number of a document is read exactly. -/
theorem readAs_json (h : t.IsWord ∨ t.IsShort) (hexact : Decimal.IsExact t.value) :
    ∃ v, t.json? = some v ∧ ReadAs v t.value := by
  rcases json?_cases t with ⟨hjson, hexponent⟩ | ⟨hjson, hword⟩
  · have hvalue : t.value = (Decimal.withSign t.negative t.digits : ℤ) := by
      rw [value, hexponent, zpow_zero, mul_one]
    rw [hvalue] at hexact ⊢
    exact ⟨_, hjson, readAs_integer hexact⟩
  · have hshort : t.IsShort := h.elim (fun hw => isShort_of_zero hw (hword hw)) id
    obtain ⟨x, hx, hread⟩ := readAs_float hshort hexact
    have hfloat := floatValue?_eq (t := t) (hshort.digits_lt.trans (by decide))
    exact ⟨.float x, by rw [hjson, hfloat, hx, Option.map_some], hread⟩

end Numeral

end Verdict
