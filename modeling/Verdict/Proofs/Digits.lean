import Verdict.Text.Blank
import Verdict.Text.Digits

/-!
# Padded digits and texts without blanks

What a number of a given width looks like: how many digits it has, and that it is read as the
number it was written for. A text without blank characters is not changed by trimming.
-/

namespace Verdict.Text

theorem natural?_eq_some {cs : List Char} (hne : cs ≠ []) (hds : ∀ c ∈ cs, c.isDigit = true) :
    natural? cs = some (Nat.ofDigitChars 10 cs 0) := by
  have hall : cs.all Char.isDigit = true := List.all_eq_true.mpr hds
  simp [natural?, hne, hall]

theorem isDigit_of_mem_padded {c : Char} {width n : Nat} (h : c ∈ padded width n) :
    c.isDigit = true := by
  rw [padded, List.leftpad] at h
  rcases List.mem_append.mp h with h | h
  · rw [(List.mem_replicate.mp h).2]
    rfl
  · exact isDigit_of_mem_digits h

theorem length_padded (width n : Nat) : (padded width n).length = max width (digits n).length :=
  List.length_leftpad

theorem length_padded_of_lt {width n : Nat} (hwidth : 0 < width) (h : n < 10 ^ width) :
    (padded width n).length = width := by
  have hle : (digits n).length ≤ width := (Nat.length_toDigits_le_iff (by decide) hwidth).mpr h
  rw [length_padded]
  omega

/-- Zeros in front do not change the number. -/
theorem ofDigitChars_padded (width n : Nat) : Nat.ofDigitChars 10 (padded width n) 0 = n := by
  rw [padded, List.leftpad, Nat.ofDigitChars_append, Nat.ofDigitChars_replicate_zero, Nat.mul_zero]
  exact Nat.ofDigitChars_ten_toDigits

theorem padded_ne_nil (width n : Nat) : padded width n ≠ [] := by
  intro h
  have hnil := (List.append_eq_nil_iff.mp h).2
  exact digits_ne_nil n hnil

@[simp] theorem natural?_padded (width n : Nat) : natural? (padded width n) = some n := by
  rw [natural?_eq_some (padded_ne_nil width n) fun c => isDigit_of_mem_padded, ofDigitChars_padded]

theorem toNat_of_isDigit {c : Char} (h : c.isDigit = true) : 48 ≤ c.toNat ∧ c.toNat ≤ 57 := by
  simpa [Char.isDigit, UInt32.le_iff_toNat_le] using h

/-- Digits make a number with no more digits than they are. -/
theorem ofDigitChars_lt {ds : List Char} (hds : ∀ c ∈ ds, c.isDigit = true) :
    Nat.ofDigitChars 10 ds 0 < 10 ^ ds.length := by
  induction ds with
  | nil => decide
  | cons c ds ih =>
    have hc : c.toNat - '0'.toNat ≤ 9 := by
      have hrange := toNat_of_isDigit (hds c List.mem_cons_self)
      have hzero : '0'.toNat = 48 := rfl
      omega
    have hrest := ih fun d hd => hds d (List.mem_cons_of_mem _ hd)
    have hfirst := Nat.mul_le_mul_left (10 ^ ds.length) hc
    rw [Nat.ofDigitChars_cons, Nat.ofDigitChars_eq_ofDigitChars_zero, List.length_cons,
      Nat.pow_succ, Nat.mul_zero, Nat.zero_add]
    omega

theorem digits_bounds {n : Nat} (h : 0 < n) :
    10 ^ ((digits n).length - 1) ≤ n ∧ n < 10 ^ (digits n).length := by
  have hpos : 0 < (digits n).length := Nat.length_toDigits_pos
  refine ⟨?_, (Nat.length_toDigits_le_iff (by decide) hpos).mp (Nat.le_refl _)⟩
  by_cases hone : (digits n).length - 1 = 0
  · rw [hone]
    exact h
  · refine Nat.le_of_not_lt fun hlt => ?_
    have hle := (Nat.length_toDigits_le_iff (by decide) (Nat.pos_of_ne_zero hone)).mpr hlt
    exact absurd hle (Nat.not_le.mpr (Nat.sub_lt hpos Nat.one_pos))

theorem isBlank_of_isDigit {c : Char} (h : c.isDigit = true) : isBlank c = false := by
  have hrange := toNat_of_isDigit h
  simp [isBlank, blankRanges]
  omega

theorem trim_eq_self {cs : List Char} (h : ∀ c ∈ cs, isBlank c = false) : trim cs = cs := by
  have hdrop : ∀ l : List Char, (∀ c ∈ l, isBlank c = false) → l.dropWhile isBlank = l := by
    intro l hl
    cases l with
    | nil => rfl
    | cons c rest => exact List.dropWhile_cons_of_neg (by simp [hl c List.mem_cons_self])
  rw [trim, hdrop cs h, hdrop cs.reverse fun c hc => h c (List.mem_reverse.mp hc),
    List.reverse_reverse]

end Verdict.Text
