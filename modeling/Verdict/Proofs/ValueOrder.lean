import Verdict.Proofs.DayCount
import Verdict.Proofs.EqualFacts
import Verdict.Proofs.UnknownFaults

/-!
# The order of values

Whole numbers and decimals are compared by the rational numbers that they stand for, so all of them
are in one order, however many places they have. Dates are compared by their day numbers, and truth
values only for being the same. No other values compare. Where a comparison has a result, the
opposite comparison has the opposite result.
-/

namespace Verdict

/-- The faults are the same, or truth values were compared in one way and in the opposite one. -/
inductive Fault.UpToOpposite : Fault → Fault → Prop where
  | refl (fault : Fault) : UpToOpposite fault fault
  | unordered (c : Comparison) : UpToOpposite (.unordered c) (.unordered c.negate)

/-- The second decimal has the digits of the first one and zeros after them. -/
structure Decimal.TrailingZeros (d e : Decimal) (count : ℕ) : Prop where
  negative : e.negative = d.negative
  coefficient : e.coefficient = d.coefficient * 10 ^ count
  scale : e.scale = d.scale + count

theorem Decimal.TrailingZeros.value_eq {d e : Decimal} {count : ℕ} (h : TrailingZeros d e count) :
    d.value = e.value := by
  have hsigned : e.signed = d.signed * 10 ^ count := by
    rw [signed, signed, h.negative, h.coefficient]
    push_cast
    split
    · rw [neg_mul]
    · rfl
  rw [value, value, hsigned, h.scale, pow_add]
  push_cast
  exact (mul_div_mul_right _ _ (by positivity)).symm

namespace Value

/-- The number that a value stands for, if it is one. -/
def number? : Value → Option ℚ
  | int n => some n.toInt
  | decimal d => some d.value
  | _ => none

/-- The values can be compared in this way. -/
inductive Comparable (c : Comparison) : Value → Value → Prop where
  | numbers {v w : Value} (hv : v.number?.isSome) (hw : w.number?.isSome) : Comparable c v w
  | dates (a b : Date) : Comparable c (.date a) (.date b)
  | truths (a b : Bool) (hc : c = .eq ∨ c = .ne) : Comparable c (.bool a) (.bool b)

/-- The first value is at most the second. -/
def AtMost (v w : Value) : Prop :=
  v.compare .le w = .ok true

variable {c : Comparison} {u v w : Value} {x y : ℚ}

/-! ## Which values compare -/

theorem comparable_iff : Comparable c v w ↔ c.suits v.kind w.kind = true := by
  constructor
  · rintro (⟨hv, hw⟩ | ⟨a, b⟩ | ⟨a, b, rfl | rfl⟩)
    · cases v <;> cases w <;> simp_all [number?, Comparison.suits, kind, Kind.isNumeric]
    · rfl
    · rfl
    · rfl
  · intro h
    cases v <;> cases w <;> simp [Comparison.suits, kind, Kind.isNumeric] at h
    · exact .truths _ _ h
    · exact .numbers rfl rfl
    · exact .numbers rfl rfl
    · exact .numbers rfl rfl
    · exact .numbers rfl rfl
    · exact .dates _ _

/-- What does not compare is a fault. -/
theorem compare_eq_error_iff : (∃ fault, v.compare c w = .error fault) ↔ ¬Comparable c v w := by
  rw [comparable_iff, ← exists_compare_iff]
  cases v.compare c w <;> simp

/-! ## Numbers -/

theorem exists_asDecimal_of_number? (h : v.number? = some x) :
    ∃ d, v.asDecimal = .ok d ∧ d.value = x := by
  cases v with
  | int n => exact ⟨.ofInt n, rfl, (Decimal.value_ofInt n).trans (Option.some.inj h)⟩
  | decimal d => exact ⟨d, rfl, Option.some.inj h⟩
  | bool _ | date _ => cases h

/-- Numbers are compared by their exact values. -/
theorem compare_numbers (c : Comparison) (hv : v.number? = some x) (hw : w.number? = some y) :
    v.compare c w = .ok (c.relates x y) := by
  obtain ⟨d, hd, rfl⟩ := exists_asDecimal_of_number? hv
  obtain ⟨e, he, rfl⟩ := exists_asDecimal_of_number? hw
  have hmixed : (.ok (c.holds (d.order e)) : Except Fault Bool) = .ok (c.relates d.value e.value) :=
    congrArg Except.ok (Decimal.holds_order c d e)
  cases v with
  | int n =>
    cases w with
    -- Two whole numbers are compared without being turned into decimals.
    | int m =>
      cases hd
      cases he
      rw [compare_int, Decimal.value_ofInt, Decimal.value_ofInt,
        Comparison.relates_map Int.cast_strictMono]
    | decimal _ =>
      cases hd
      cases he
      exact hmixed
    | bool _ | date _ => cases hw
  | decimal _ =>
    cases w with
    | int _ | decimal _ =>
      cases hd
      cases he
      exact hmixed
    | bool _ | date _ => cases hw
  | bool _ | date _ => cases hv

theorem atMost_iff (hv : v.number? = some x) (hw : w.number? = some y) : v.AtMost w ↔ x ≤ y := by
  rw [AtMost, compare_numbers .le hv hw, Except.ok.injEq]
  exact decide_eq_true_iff

theorem atMost_total (hv : v.number?.isSome) (hw : w.number?.isSome) : v.AtMost w ∨ w.AtMost v := by
  obtain ⟨x, hx⟩ := Option.isSome_iff_exists.mp hv
  obtain ⟨y, hy⟩ := Option.isSome_iff_exists.mp hw
  rw [atMost_iff hx hy, atMost_iff hy hx]
  exact le_total x y

theorem AtMost.trans (hu : u.number?.isSome) (hv : v.number?.isSome) (hw : w.number?.isSome)
    (huv : u.AtMost v) (hvw : v.AtMost w) : u.AtMost w := by
  obtain ⟨x, hx⟩ := Option.isSome_iff_exists.mp hu
  obtain ⟨y, hy⟩ := Option.isSome_iff_exists.mp hv
  obtain ⟨z, hz⟩ := Option.isSome_iff_exists.mp hw
  rw [atMost_iff hx hy] at huv
  rw [atMost_iff hy hz] at hvw
  rw [atMost_iff hx hz]
  exact huv.trans hvw

/-! ## Dates -/

/-- Dates have day numbers of 64 bits and are compared as these whole numbers are. -/
theorem exists_compare_date (c : Comparison) (a b : Date) :
    ∃ m n : Int64, (date a).asInt = .ok m.toInt ∧ (date b).asInt = .ok n.toInt ∧
      (date a).compare c (date b) = (int m).compare c (int n) := by
  have hexact : ∀ d : Date, (Int64.ofInt d.julianDay).toInt = d.julianDay := by
    intro d
    have hbounds := d.julianDay_bounds
    rw [Int64.toInt_ofInt_of_le] <;> omega
  refine ⟨.ofInt a.julianDay, .ofInt b.julianDay, ?_, ?_, ?_⟩
  · rw [hexact, asInt]
  · rw [hexact, asInt]
  · rw [compare_int, hexact, hexact, ← Date.holds_order, compare]

/-! ## Opposite comparisons -/

/-- Where values compare, the opposite comparison has the opposite result. -/
theorem compare_negate_of_ok {b : Bool} (h : v.compare c w = .ok b) :
    v.compare c.negate w = .ok !b := by
  have hcomparable : Comparable c v w := comparable_iff.mpr (exists_compare_iff.mp ⟨b, h⟩)
  cases hcomparable with
  | numbers hv hw =>
    obtain ⟨x, hx⟩ := Option.isSome_iff_exists.mp hv
    obtain ⟨y, hy⟩ := Option.isSome_iff_exists.mp hw
    rw [compare_numbers c hx hy] at h
    cases h
    rw [compare_numbers c.negate hx hy, ← Comparison.holds_compare, Comparison.holds_negate,
      Comparison.holds_compare]
  | dates a a' =>
    cases h
    exact congrArg Except.ok (Comparison.holds_negate c _)
  | truths a a' hc =>
    rcases hc with rfl | rfl
    · cases h
      rfl
    · cases h
      exact congrArg Except.ok (Bool.not_not (a == a')).symm

/-- Where values do not compare, the opposite comparison fails for the same reason. -/
theorem compare_negate_of_error {fault : Fault} (h : v.compare c w = .error fault) :
    ∃ fault', v.compare c.negate w = .error fault' ∧ fault.UpToOpposite fault' := by
  cases v with
  | bool a =>
    cases w with
    | bool a' => cases c <;> cases h <;> exact ⟨_, rfl, .unordered _⟩
    | int _ | decimal _ | date _ =>
      cases h
      exact ⟨_, rfl, .refl _⟩
  | int _ | decimal _ =>
    cases w with
    | int _ | decimal _ => cases h
    | bool _ | date _ =>
      cases h
      exact ⟨_, rfl, .refl _⟩
  | date a =>
    cases w with
    | date a' => cases h
    | bool _ | int _ | decimal _ =>
      cases h
      exact ⟨_, rfl, .refl _⟩

theorem compare_negate_iff {b : Bool} :
    v.compare c w = .ok b ↔ v.compare c.negate w = .ok !b := by
  constructor
  · exact compare_negate_of_ok
  · intro h
    have hback := compare_negate_of_ok h
    rwa [Comparison.negate_negate, Bool.not_not] at hback

end Value

open Value in
/-- Values compare if both are numbers, or both dates, or both truth values that are compared for
being the same; all else is a fault. Numbers are compared by their exact values, so they are in one
order, and zeros at the end of a decimal do not count. Dates are compared by their day numbers. The
opposite comparison has the opposite result. -/
theorem values_compared_exactly (c : Comparison) :
    (∀ v w : Value, (∃ fault, v.compare c w = .error fault) ↔ ¬Comparable c v w) ∧
      (∀ (v w : Value) (x y : ℚ), v.number? = some x → w.number? = some y →
        v.compare c w = .ok (c.relates x y)) ∧
      (∀ v w : Value, v.number?.isSome → w.number?.isSome → v.AtMost w ∨ w.AtMost v) ∧
      (∀ u v w : Value, u.number?.isSome → v.number?.isSome → w.number?.isSome →
        u.AtMost v → v.AtMost w → u.AtMost w) ∧
      (∀ (d e : Decimal) (count : ℕ), Decimal.TrailingZeros d e count → ∀ v : Value,
        (decimal e).compare c v = (decimal d).compare c v ∧
          v.compare c (decimal e) = v.compare c (decimal d)) ∧
      (∀ a b : Date, ∃ m n : Int64, (date a).asInt = .ok m.toInt ∧ (date b).asInt = .ok n.toInt ∧
        (date a).compare c (date b) = (int m).compare c (int n)) ∧
      ∀ (v w : Value) (b : Bool), v.compare c w = .ok b ↔ v.compare c.negate w = .ok !b := by
  refine ⟨fun _ _ => compare_eq_error_iff, fun _ _ _ _ => compare_numbers c,
    fun _ _ => atMost_total, fun _ _ _ => AtMost.trans, fun d e count h v => ?_,
    exists_compare_date c, fun _ _ _ => compare_negate_iff⟩
  exact compare_decimal_congr h.value_eq c v

/-- A decimal just above the largest whole number of 64 bits. -/
def aboveInt64 : Decimal :=
  .ofParts false 922337203685477580700000001 8 (by decide) (by decide)

/-- The same with one place more. -/
def aboveInt64Padded : Decimal :=
  .ofParts false 9223372036854775807000000010 9 (by decide) (by decide)

open Value in
/-- The whole number is below both decimals, and these differ in nothing that a comparison sees. -/
theorem values_compared_exactly_aboveInt64 :
    Decimal.TrailingZeros aboveInt64 aboveInt64Padded 1 ∧
      (int Int64.maxValue).AtMost (decimal aboveInt64) ∧
      (decimal aboveInt64).AtMost (decimal aboveInt64Padded) ∧
      (int Int64.maxValue).AtMost (decimal aboveInt64Padded) ∧
      (int Int64.maxValue).compare .gt (decimal aboveInt64Padded) = .ok false := by
  obtain ⟨-, hnumbers, htotal, htrans, hpadded, -, hnegate⟩ := values_compared_exactly .le
  have hzeros : Decimal.TrailingZeros aboveInt64 aboveInt64Padded 1 := ⟨rfl, rfl, rfl⟩
  have hbelow : Comparison.le.relates (9223372036854775807 : ℚ) aboveInt64.value = true := by
    norm_num [Comparison.relates, aboveInt64, Decimal.value, Decimal.signed, Decimal.ofParts]
  have hleft : (int Int64.maxValue).AtMost (decimal aboveInt64) := by
    rw [AtMost, ← hbelow]
    exact hnumbers _ _ _ _ rfl rfl
  have hself : (decimal aboveInt64).AtMost (decimal aboveInt64) :=
    or_self_iff.mp (htotal _ _ rfl rfl)
  have hright : (decimal aboveInt64).AtMost (decimal aboveInt64Padded) :=
    (hpadded _ _ 1 hzeros _).2.trans hself
  have hboth := htrans _ _ _ rfl rfl rfl hleft hright
  exact ⟨hzeros, hleft, hright, hboth, (hnegate _ _ true).mp hboth⟩

end Verdict
