import Mathlib.Data.List.TakeWhile
import Verdict.Proofs.DecimalText
import Verdict.Request.Field

/-!
# Decimals with commas and blanks

Commas may be put into the text of a decimal anywhere, to group its digits or not, and blank
characters may stand around it. Neither changes what is read: the same decimal, to the last digit
and the last place. Only a zero with a sign is not read as itself.
-/

namespace Verdict

/-! ## Commas -/

/-- The second text is the first one with commas put in. -/
inductive WithCommas : List Char → List Char → Prop where
  | nil : WithCommas [] []
  | comma {cs grouped : List Char} (h : WithCommas cs grouped) : WithCommas cs (',' :: grouped)
  | char (c : Char) {cs grouped : List Char} (h : WithCommas cs grouped) :
    WithCommas (c :: cs) (c :: grouped)

variable {cs grouped : List Char}

/-- Without commas the texts are the same. -/
theorem WithCommas.filter_eq (h : WithCommas cs grouped) :
    grouped.filter (· != ',') = cs.filter (· != ',') := by
  induction h with
  | nil => rfl
  | comma h ih => rw [List.filter_cons_of_neg (by decide), ih]
  | char c h ih => rw [List.filter_cons, List.filter_cons, ih]

theorem withCommas_filter (grouped : List Char) :
    WithCommas (grouped.filter (· != ',')) grouped := by
  induction grouped with
  | nil => exact .nil
  | cons c rest ih =>
    by_cases hc : c = ','
    · rw [hc, List.filter_cons_of_neg (by decide)]
      exact .comma ih
    · rw [List.filter_cons, if_pos (bne_iff_ne.mpr hc)]
      exact .char c ih

theorem WithCommas.of_mem (h : WithCommas cs grouped) {c : Char} (hc : c ∈ grouped) :
    c = ',' ∨ c ∈ cs := by
  by_cases hcomma : c = ','
  · exact .inl hcomma
  · have hfilter : c ∈ grouped.filter (· != ',') := List.mem_filter.mpr ⟨hc, bne_iff_ne.mpr hcomma⟩
    rw [h.filter_eq] at hfilter
    exact .inr (List.mem_filter.mp hfilter).1

/-! ## Blanks -/

namespace Text

variable {before after : List Char}

theorem trim_append_left (hbefore : ∀ c ∈ before, isBlank c = true) (cs : List Char) :
    trim (before ++ cs) = trim cs := by
  rw [trim, trim, List.dropWhile_append_of_pos hbefore]

theorem trim_append_right (hafter : ∀ c ∈ after, isBlank c = true) (cs : List Char) :
    trim (cs ++ after) = trim cs := by
  have hreverse : ∀ c ∈ after.reverse, isBlank c = true := fun c hc =>
    hafter c (List.mem_reverse.mp hc)
  rw [trim, trim, List.dropWhile_append]
  -- Where the text in front is blank, all of it is, and nothing is left on either side.
  split
  · rename_i hcs
    rw [List.dropWhile_eq_nil_iff.mpr hafter, List.isEmpty_iff.mp hcs]
  · rw [List.reverse_append, List.dropWhile_append_of_pos hreverse]

end Text

/-! ## Reading -/

namespace Decimal

open Text

/-- The text is that of the decimal, with commas put in and blank characters around it. -/
inductive Spells (d : Decimal) : String → Prop where
  | text {before grouped after : List Char} (hbefore : ∀ c ∈ before, isBlank c = true)
    (hgrouped : WithCommas d.text.toList grouped) (hafter : ∀ c ∈ after, isBlank c = true) :
    Spells d (String.ofList (before ++ grouped ++ after))

/-- Commas and blanks are taken away before a decimal is read. -/
theorem ofChars?_grouped {d : Decimal} (h : WithCommas d.chars grouped) {before after : List Char}
    (hbefore : ∀ c ∈ before, isBlank c = true) (hafter : ∀ c ∈ after, isBlank c = true) :
    ofChars? (before ++ grouped ++ after) = some d.plain := by
  have hgrouped : ∀ c ∈ grouped, isBlank c = false := by
    intro c hc
    rcases h.of_mem hc with rfl | hc
    · decide
    · exact (not_blank_of_mem_chars hc).1
  have hchars : ∀ c ∈ d.chars, isBlank c = false := fun c hc => (not_blank_of_mem_chars hc).1
  rw [← ofChars?_chars, ofChars?, ofChars?, trim_append_right hafter, trim_append_left hbefore,
    trim_eq_self hgrouped, trim_eq_self hchars, h.filter_eq]

end Decimal

/-- A decimal is read from its text with the same coefficient and the same places, whatever commas
are put into the text and whatever blanks stand around it, unless it is a zero with a sign. -/
theorem ofJson?_spelled {d : Decimal} {s : String} (h : d.Spells s) :
    Decimal.ofJson? (.string s) = some d ↔ d.isNegativeZero = false := by
  obtain ⟨hbefore, hgrouped, hafter⟩ := h
  rw [Decimal.text, String.toList_ofList] at hgrouped
  rw [← Decimal.plain_eq_self_iff, Decimal.ofJson?, String.toList_ofList,
    Decimal.ofChars?_grouped hgrouped hbefore hafter, Option.some.injEq]

/-- The text of the least decimal that has all its places, with commas that group nothing. -/
def leastFineGrouped : List Char :=
  ",-,7,.,9228,1625,,1426,4337,5935,4395,0335,".toList

/-- The same between blanks. -/
def leastFineText : String :=
  String.ofList (['\u2003', '\t'] ++ leastFineGrouped ++ ['\u00a0'])

theorem ofJson?_spelled_leastFine :
    ∃ d : Decimal, d.negative = true ∧ d.coefficient = 79228162514264337593543950335 ∧
      d.scale = 28 ∧ d.Spells leastFineText ∧ Decimal.ofJson? (.string leastFineText) = some d := by
  have hfilter : leastFineGrouped.filter (· != ',') =
      (Decimal.ofParts true 79228162514264337593543950335 28 (by decide)
        (by decide)).text.toList := by
    decide +kernel
  have hgrouped := hfilter ▸ withCommas_filter leastFineGrouped
  have hspells : Decimal.Spells _ leastFineText :=
    .text (List.all_eq_true.mp rfl) hgrouped (List.all_eq_true.mp rfl)
  exact ⟨_, rfl, rfl, rfl, hspells, (ofJson?_spelled hspells).mpr rfl⟩

end Verdict
