import Mathlib.Data.Nat.Cast.Order.Field
import Verdict.Binary64.Shortest
import Verdict.Proofs.NearestBinary

/-!
# The shortest digits of a binary number

Of the values with fifteen decimal digits, a binary number covers at most one: its neighbours are
nearer to it than these values are to one another. So the search for the shortest digits finds the
value that was rounded to the number, if it has no more digits than that.
-/

namespace Verdict.Binary64

open Text

variable {x : Binary64} {v : ℚ}

/-! ## Reading back -/

/-- The part of the smallest number in which values on a decimal grid are compared with it. -/
def gridUnit (g : ℤ) : ℚ :=
  quantum / 4 / 10 ^ (-g).toNat

theorem gridUnit_pos (g : ℤ) : 0 < gridUnit g := by
  have hpos := quantum_pos
  rw [gridUnit]
  positivity

theorem point_eq (g : ℤ) (q : ℕ) :
    (q * 10 ^ g : ℚ) = (q * 10 ^ g.toNat * 2 ^ 1076 : ℕ) * gridUnit g := by
  have hfour := two_pow_add (k := 1074) (m := 2) (n := 1076) rfl
  have hquantum := mul_quantum
  rw [hfour, zpow_eq_div, gridUnit]
  generalize 2 ^ 1074 = n at *
  push_cast
  calc (q : ℚ) * (10 ^ g.toNat / 10 ^ (-g).toNat)
    _ = q * 10 ^ g.toNat / 10 ^ (-g).toNat * (n * quantum) := by rw [hquantum]; ring
    _ = _ := by ring

theorem quarters_eq (g : ℤ) (a : ℕ) :
    (a * quantum / 4 : ℚ) = (a * 10 ^ (-g).toNat : ℕ) * gridUnit g := by
  rw [gridUnit]
  push_cast
  field_simp

theorem low_eq (h : x.IsNormal) :
    x.size - x.reachBelow = (4 * x.quanta -
      (if x.significand = 2 ^ 52 ∧ 0 < x.shift then 2 ^ x.shift else 2 * 2 ^ x.shift) : ℕ) *
        quantum / 4 := by
  have hle : 2 ^ x.shift ≤ x.quanta :=
    Nat.le_mul_of_pos_left _ (Nat.lt_of_lt_of_le (by positivity) h.le_significand)
  rw [size, reachBelow, reach]
  split
  · rw [Nat.cast_sub (by omega)]
    push_cast
    ring
  · rw [Nat.cast_sub (by omega)]
    push_cast
    ring

theorem high_eq (x : Binary64) :
    x.size + x.reach = (4 * x.quanta + 2 * 2 ^ x.shift : ℕ) * quantum / 4 := by
  rw [size, reach]
  push_cast
  ring

/-- What reads back is what the number covers. -/
theorem readsBack_iff (h : x.IsNormal) (g : ℤ) (q : ℕ) :
    x.readsBack g q = true ↔ x.Covers (q * 10 ^ g) := by
  rw [Covers, low_eq h, high_eq, quarters_eq g, quarters_eq g, point_eq]
  have hpos := gridUnit_pos g
  simp only [mul_le_mul_iff_of_pos_right hpos, mul_lt_mul_iff_of_pos_right hpos, Nat.cast_le,
    Nat.cast_lt, readsBack]
  split <;> simp only [Bool.and_eq_true, decide_eq_true_eq]

/-! ## Magnitude -/

theorem two_pow_le_ten_pow {k n : ℕ} (h : k ≤ 3 * n) : 2 ^ k ≤ 10 ^ n := by
  calc 2 ^ k
    _ ≤ 2 ^ (3 * n) := Nat.pow_le_pow_right (by decide) h
    _ = (2 ^ 3) ^ n := Nat.pow_mul 2 3 n
    _ ≤ 10 ^ n := Nat.pow_le_pow_left (by decide) n

theorem floor_bounds (n : ℕ) {k : ℕ} (hk : 0 < k) :
    ((n / k : ℕ) : ℚ) ≤ n / k ∧ (n / k : ℚ) < (n / k + 1 : ℕ) := by
  refine ⟨Nat.cast_div_le, ?_⟩
  rw [div_lt_iff₀ (by exact_mod_cast hk)]
  exact_mod_cast mul_comm k _ ▸ Nat.lt_mul_div_succ n hk

/-- The number lies between the power of ten below its magnitude and that of its magnitude. -/
theorem IsNormal.magnitude_spec (h : x.IsNormal) :
    (10 : ℚ) ^ (x.magnitude - 1) ≤ x.size ∧ x.size < 10 ^ x.magnitude := by
  have hone := mul_quantum
  have hten := two_pow_le_ten_pow (k := 1074) (n := 400) (by decide)
  have hquanta : 0 < x.quanta := by
    have hsignificand := h.le_significand
    exact Nat.mul_pos (by omega) (by positivity)
  rw [magnitude, size, show (400 : ℤ) = (400 : ℕ) from rfl]
  -- the exponents are too large to compute the powers
  generalize 2 ^ 1074 = k at *
  generalize 400 = e at *
  have hpos : 0 < k := Nat.pos_of_ne_zero (by rintro rfl; simp at hone)
  have hk : (0 : ℚ) < k := by exact_mod_cast hpos
  have hleast : 0 < x.quanta * 10 ^ e / k :=
    Nat.div_pos (hten.trans (Nat.le_mul_of_pos_left _ hquanta)) hpos
  have hsize : (x.quanta * quantum : ℚ) = (x.quanta * 10 ^ e : ℕ) / k * 10 ^ (-e : ℤ) := by
    rw [eq_one_div_of_mul_eq_one_right hone]
    push_cast
    rw [zpow_neg, zpow_natCast]
    field_simp
  generalize x.quanta * 10 ^ e = n at *
  obtain ⟨hlow, -⟩ := scaled_bounds hleast (-e)
  have hhigh : (n / k + 1 : ℕ) ≤ 10 ^ (Nat.toDigits 10 (n / k)).length := (digits_bounds hleast).2
  have hscale : (0 : ℚ) < 10 ^ (-e : ℤ) := by positivity
  obtain ⟨hfloor, hceil⟩ := floor_bounds n hpos
  rw [hsize]
  constructor
  · exact hlow.trans (mul_le_mul_of_nonneg_right hfloor hscale.le)
  · rw [sub_eq_add_neg, zpow_add₀ (by norm_num), zpow_natCast]
    refine mul_lt_mul_of_pos_right (hceil.trans_le ?_) hscale
    exact_mod_cast hhigh

/-! ## Fifteen digits -/

/-- A power of ten is at most fifteen decimal digits below a number, or its multiples with fifteen
digits stay too far below the number. -/
theorem exists_multiple_of_covers (hx : x.IsNormal) {n : ℕ} (hn : n < 10 ^ 15) {k : ℤ}
    (h : x.Covers (n * 10 ^ k)) : ∃ q : ℕ, (n * 10 ^ k : ℚ) = q * 10 ^ (x.magnitude - 15) := by
  rcases le_or_gt (x.magnitude - 15) k with hle | hlt
  · obtain ⟨j, rfl⟩ := Int.le.dest hle
    refine ⟨n * 10 ^ j, ?_⟩
    rw [zpow_add₀ (by norm_num), zpow_natCast]
    push_cast
    ring
  · exfalso
    have hbelow := (abs_le.mp h.abs_sub_le).1
    have hreach := hx.reach_le
    have hn' : (n : ℚ) + 1 ≤ 10 ^ 15 := by exact_mod_cast hn
    have hscale : (0 : ℚ) < 10 ^ k := by positivity
    have hsize : (10 ^ 15 * 10 ^ k : ℚ) ≤ x.size := by
      calc (10 ^ 15 * 10 ^ k : ℚ)
        _ = 10 ^ (15 + k) := by rw [zpow_add₀ (by norm_num)]; rfl
        _ ≤ 10 ^ (x.magnitude - 1) := zpow_le_zpow_right₀ (by norm_num) (by omega)
        _ ≤ x.size := hx.magnitude_spec.1
    -- the multiple is below a power of ten that the number reaches, by more than the midpoint is
    have hpoint : (n + 1) * (10 ^ k : ℚ) ≤ 10 ^ 15 * 10 ^ k :=
      mul_le_mul_of_nonneg_right hn' hscale.le
    nlinarith

theorem IsNormal.size_lt (hx : x.IsNormal) : x.size < 10 ^ 15 * (10 : ℚ) ^ (x.magnitude - 15) := by
  have hsplit : (10 : ℚ) ^ x.magnitude = 10 ^ 15 * 10 ^ (x.magnitude - 15) := by
    rw [← zpow_natCast, ← zpow_add₀ (by norm_num)]
    congr 1
    omega
  exact hsplit ▸ hx.magnitude_spec.2

theorem IsNormal.reach_lt (hx : x.IsNormal) : 2 * x.reach < (10 : ℚ) ^ (x.magnitude - 15) := by
  have hreach := hx.reach_le
  have hsize := hx.size_lt
  have hscale : (0 : ℚ) < 10 ^ (x.magnitude - 15) := by positivity
  linarith

theorem le_of_mul_lt {q r : ℕ} {scale : ℚ} (hscale : 0 < scale)
    (h : (q * scale : ℚ) < (r + 1) * scale) : q ≤ r :=
  Nat.lt_succ_iff.mp (by exact_mod_cast lt_of_mul_lt_mul_right h hscale.le)

/-- Values on a grid of fifteen digits are further from one another than the values that a number
covers. -/
theorem eq_of_covers (hx : x.IsNormal) {q r : ℕ} (hq : x.Covers (q * 10 ^ (x.magnitude - 15)))
    (hr : x.Covers (r * 10 ^ (x.magnitude - 15))) : q = r := by
  have hreach := hx.reach_lt
  have hscale : (0 : ℚ) < 10 ^ (x.magnitude - 15) := by positivity
  have hq' := abs_le.mp hq.abs_sub_le
  have hr' := abs_le.mp hr.abs_sub_le
  exact le_antisymm (le_of_mul_lt hscale (by linarith)) (le_of_mul_lt hscale (by linarith))

/-- The values on the grid of fifteen digits have hardly more digits than that. -/
theorem lt_of_covers (hx : x.IsNormal) {q : ℕ} (h : x.Covers (q * 10 ^ (x.magnitude - 15))) :
    q < 10 ^ 16 := by
  have hreach := hx.reach_lt
  have hsize := hx.size_lt
  have hnear := (abs_le.mp h.abs_sub_le).2
  have hscale : (0 : ℚ) < 10 ^ (x.magnitude - 15) := by positivity
  have hle : q ≤ 10 ^ 15 := by
    refine le_of_mul_lt hscale ?_
    push_cast
    linarith
  omega

/-- A value that is found reads back, unless two neighbours do. -/
theorem onGrid?_cases {g : ℤ} {d : Digits} (h : x.onGrid? g = some d) :
    (∃ q, x.readsBack g q = true ∧ x.readsBack g (q + 1) = true) ∨
      d.exponent = g ∧ x.readsBack g d.value = true := by
  unfold onGrid? at h
  dsimp only at h
  split at h
  · rename_i hlower hupper
    exact .inl ⟨_, hlower, hupper⟩
  · rename_i hlower _
    cases h
    exact .inr ⟨rfl, hlower⟩
  · rename_i _ hupper
    cases h
    exact .inr ⟨rfl, hupper⟩
  · cases h

/-- On a grid of at most fifteen digits no other value is found. -/
theorem value_of_onGrid? (hx : x.IsNormal) {n : ℕ} (hn : n < 10 ^ 15) {k : ℤ}
    (h : x.Covers (n * 10 ^ k)) {g : ℤ} (hg : x.magnitude - 15 ≤ g) {d : Digits}
    (hd : x.onGrid? g = some d) :
    (d.value * 10 ^ d.exponent : ℚ) = n * 10 ^ k ∧ d.value < 10 ^ 16 := by
  obtain ⟨q, hq⟩ := exists_multiple_of_covers hx hn h
  obtain ⟨j, rfl⟩ := Int.le.dest hg
  have hsplit : (10 : ℚ) ^ (x.magnitude - 15 + j) = 10 ^ j * 10 ^ (x.magnitude - 15) := by
    rw [zpow_add₀ (by norm_num), zpow_natCast, mul_comm]
  have hread : ∀ {a : ℕ}, x.readsBack (x.magnitude - 15 + j) a = true → a * 10 ^ j = q := by
    intro a ha
    rw [readsBack_iff hx, hsplit, ← mul_assoc] at ha
    exact eq_of_covers hx (by push_cast; exact ha) (hq ▸ h)
  rcases onGrid?_cases hd with ⟨a, ha, hnext⟩ | ⟨hexponent, ha⟩
  -- two neighbours cannot both be the value
  · have heq := Nat.eq_of_mul_eq_mul_right (by positivity) ((hread ha).trans (hread hnext).symm)
    omega
  · have hq' := hread ha
    constructor
    · rw [hexponent, hq, ← hq', hsplit]
      push_cast
      ring
    · have hle : d.value ≤ q := hq' ▸ Nat.le_mul_of_pos_right _ (by positivity)
      exact hle.trans_lt (lt_of_covers hx (hq ▸ h))

theorem lower_bounds (x : Binary64) (g : ℤ) :
    ∃ lower, lower = x.quanta * 10 ^ (-g).toNat / (2 ^ 1074 * 10 ^ g.toNat) ∧
      (lower * 10 ^ g : ℚ) ≤ x.size ∧ x.size < (lower + 1) * 10 ^ g := by
  have hone := mul_quantum
  refine ⟨_, rfl, ?_⟩
  rw [size]
  generalize 2 ^ 1074 = k at *
  have hk : 0 < k := Nat.pos_of_ne_zero (by rintro rfl; simp at hone)
  have hscale : (0 : ℚ) < 10 ^ g := by positivity
  have hsize : (x.quanta * quantum : ℚ) =
      (x.quanta * 10 ^ (-g).toNat : ℕ) / (k * 10 ^ g.toNat : ℕ) * 10 ^ g := by
    rw [eq_one_div_of_mul_eq_one_right hone, zpow_eq_div]
    push_cast
    field_simp
  obtain ⟨hfloor, hceil⟩ := floor_bounds (x.quanta * 10 ^ (-g).toNat) (k := k * 10 ^ g.toNat)
    (by positivity)
  rw [Nat.cast_add, Nat.cast_one] at hceil
  rw [hsize]
  exact ⟨mul_le_mul_of_nonneg_right hfloor hscale.le, mul_lt_mul_of_pos_right hceil hscale⟩

/-- On the grid of fifteen digits a value is found. -/
theorem isSome_onGrid? (hx : x.IsNormal) {q : ℕ} (h : x.Covers (q * 10 ^ (x.magnitude - 15))) :
    (x.onGrid? (x.magnitude - 15)).isSome = true := by
  have hreach := hx.reach_lt
  obtain ⟨lower, hlower, hle, hlt⟩ := x.lower_bounds (x.magnitude - 15)
  have hread := (readsBack_iff hx _ q).mpr h
  have hnear := abs_le.mp h.abs_sub_le
  have hscale : (0 : ℚ) < 10 ^ (x.magnitude - 15) := by positivity
  -- less than half a step apart, so the value is one of the two neighbours
  have hge : lower ≤ q := le_of_mul_lt hscale (by linarith)
  have hle : q ≤ lower + 1 := by
    refine le_of_mul_lt hscale ?_
    push_cast
    linarith
  rw [onGrid?, ← hlower]
  obtain rfl | rfl : q = lower ∨ q = lower + 1 := by omega
  · rw [hread]
    cases x.readsBack (x.magnitude - 15) (q + 1) <;> rfl
  · rw [hread]
    cases x.readsBack (x.magnitude - 15) lower <;> rfl

theorem stripZeros_spec (fuel : ℕ) (d : Digits) :
    ((d.stripZeros fuel).value * 10 ^ (d.stripZeros fuel).exponent : ℚ) =
        d.value * 10 ^ d.exponent ∧
      (d.stripZeros fuel).value ≤ d.value := by
  induction fuel generalizing d with
  | zero => exact ⟨rfl, le_refl _⟩
  | succ fuel ih =>
    rw [Digits.stripZeros]
    split
    · rename_i hzero
      obtain ⟨hvalue, hle⟩ := ih ⟨d.value / 10, d.exponent + 1⟩
      refine ⟨?_, hle.trans (Nat.div_le_self _ _)⟩
      have hten : ((d.value / 10 : ℕ) : ℚ) * 10 = d.value := by
        exact_mod_cast Nat.div_mul_cancel (Nat.dvd_of_mod_eq_zero hzero.2)
      rw [hvalue, zpow_add_one₀ (by norm_num), ← hten]
      ring
    · exact ⟨rfl, le_refl _⟩

/-- The shortest digits of the number to which a value of fifteen digits is rounded have this
value. -/
theorem shortest_spec (hx : x.IsNormal) {n : ℕ} (hn : n < 10 ^ 15) {k : ℤ}
    (h : x.Covers (n * 10 ^ k)) :
    (x.shortest.value * 10 ^ x.shortest.exponent : ℚ) = n * 10 ^ k ∧
      x.shortest.value < 10 ^ 16 := by
  obtain ⟨q, hq⟩ := exists_multiple_of_covers hx hn h
  -- the search has found a value when it comes to fifteen digits, if not before
  have hsome : ((List.range 15).findSome? fun i : ℕ =>
      x.onGrid? (x.magnitude - (i + 1))).isSome := by
    rw [List.findSome?_isSome_iff]
    exact ⟨14, by decide, isSome_onGrid? hx (hq ▸ h)⟩
  obtain ⟨d, hd⟩ := Option.isSome_iff_exists.mp hsome
  obtain ⟨i, hi, hgrid⟩ := List.exists_of_findSome?_eq_some hd
  have hcount : i < 15 := List.mem_range.mp hi
  obtain ⟨hvalue, hlt⟩ := value_of_onGrid? hx hn h (by omega) hgrid
  have hrange : List.range 17 = List.range 15 ++ [15, 16] := by decide
  obtain ⟨hstripped, hle⟩ := stripZeros_spec 17 d
  rw [shortest, hrange, List.findSome?_append, hd, Option.some_or]
  exact ⟨hstripped.trans hvalue, hle.trans_lt hlt⟩

end Verdict.Binary64
