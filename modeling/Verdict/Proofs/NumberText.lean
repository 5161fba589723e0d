import Verdict.Json.Reader
import Verdict.Proofs.Numerals

/-!
# Numerals in documents

Where a document has a numeral, a number of its value is read, and where it has the numeral between
quotation marks, a string. What follows must not go on with the number.
-/

namespace Verdict

namespace Json.Scan

/-- The text does not go on with a number that stands before it. -/
def EndsNumber (rest : List Char) : Prop :=
  ∀ c ∈ rest.head?, c.isDigit = false ∧ c ≠ '.' ∧ c ≠ 'e' ∧ c ≠ 'E'

theorem takeWhile_digits {ds rest : List Char} (hds : ∀ c ∈ ds, c.isDigit = true)
    (hrest : ∀ c ∈ rest.head?, c.isDigit = false) :
    (ds ++ rest).takeWhile Char.isDigit = ds ∧ (ds ++ rest).dropWhile Char.isDigit = rest := by
  have hstop : rest.takeWhile Char.isDigit = [] ∧ rest.dropWhile Char.isDigit = rest := by
    cases rest with
    | nil => exact ⟨rfl, rfl⟩
    | cons c rest =>
      have hc : ¬c.isDigit = true := by simp [hrest c rfl]
      exact ⟨List.takeWhile_cons_of_neg hc, List.dropWhile_cons_of_neg hc⟩
  rw [List.takeWhile_append_of_pos hds, List.dropWhile_append_of_pos hds, hstop.1, hstop.2]
  exact ⟨List.append_nil ds, rfl⟩

theorem digitRun_append {ds rest : List Char} (hne : ds ≠ []) (hds : ∀ c ∈ ds, c.isDigit = true)
    (hrest : ∀ c ∈ rest.head?, c.isDigit = false) : digitRun (ds ++ rest) = some (ds, rest) := by
  obtain ⟨htake, hdrop⟩ := takeWhile_digits hds hrest
  obtain ⟨c, ds, rfl⟩ := List.exists_cons_of_ne_nil hne
  rw [digitRun, htake, hdrop]

/-- Zero stands alone before the point. -/
def IsWhole (ds : List Char) : Prop :=
  ds = ['0'] ∨ ds.head? ≠ some '0'

theorem wholeDigits_append {ds rest : List Char} (hne : ds ≠ []) (hds : ∀ c ∈ ds, c.isDigit = true)
    (hwhole : IsWhole ds) (hrest : ∀ c ∈ rest.head?, c.isDigit = false) :
    wholeDigits (ds ++ rest) = some (ds, rest) := by
  rw [wholeDigits, digitRun_append hne hds hrest]
  simp only [Option.bind_eq_bind, Option.bind_some]
  split
  · rcases hwhole with hzero | hhead
    · cases hzero
    · exact absurd rfl hhead
  · rfl

theorem fractionDigits_append {t : Numeral} {rest : List Char}
    (hrest : ∀ c ∈ rest.head?, c.isDigit = false ∧ c ≠ '.') :
    fractionDigits ((if t.fraction = [] then [] else '.' :: t.fraction) ++ rest) =
      some (t.fraction, rest) := by
  by_cases hnil : t.fraction = []
  · rw [if_pos hnil, hnil, List.nil_append]
    cases rest with
    | nil => rfl
    | cons c rest =>
      unfold fractionDigits
      split
      · rename_i heq
        cases heq
        exact absurd rfl (hrest '.' rfl).2
      · rfl
  · rw [if_neg hnil, List.cons_append, fractionDigits]
    exact digitRun_append hnil (fun c hc => t.isDigit c (List.mem_append_right _ hc))
      fun c hc => (hrest c hc).1

theorem exponentPart_append (power : Option PowerOfTen) {rest : List Char}
    (hrest : EndsNumber rest) :
    exponentPart ((power.map (·.chars)).getD [] ++ rest) = some (power.map (·.value), rest) := by
  cases power with
  | none =>
    cases rest with
    | nil => rfl
    | cons c rest =>
      obtain ⟨-, -, hlower, hupper⟩ := hrest c rfl
      simp [exponentPart, hlower, hupper]
  | some p =>
    have hrun : digitRun (p.digits ++ rest) = some (p.digits, rest) :=
      digitRun_append p.digits_ne_nil p.isDigit fun c hc => (hrest c hc).1
    rw [Option.map_some, Option.getD_some, PowerOfTen.chars, List.cons_append, List.append_assoc,
      Option.map_some, PowerOfTen.value]
    unfold exponentPart
    simp only [p.isMark, if_true]
    cases hsign : p.sign with
    | none =>
      obtain ⟨c, ds, hdigits⟩ := List.exists_cons_of_ne_nil p.digits_ne_nil
      have hc : c.isDigit = true := p.isDigit c (by simp [hdigits])
      rw [Option.toList_none, List.nil_append, if_neg (by simp)]
      split
      · rename_i heq
        rw [hdigits] at heq
        cases heq
        exact absurd hc (by decide)
      · rename_i heq
        rw [hdigits] at heq
        cases heq
        exact absurd hc (by decide)
      · rw [hrun]
        rfl
    | some sign =>
      rcases p.isSign sign hsign with rfl | rfl
      · change (digitRun (p.digits ++ rest)).map _ = _
        rw [hrun, if_neg (by decide)]
        rfl
      · change (digitRun (p.digits ++ rest)).map _ = _
        rw [hrun, if_pos rfl]
        rfl

theorem le_ofDigitChars (ds : List Char) (n : ℕ) : n ≤ Nat.ofDigitChars 10 ds n := by
  have hle : n ≤ 10 ^ ds.length * n := Nat.le_mul_of_pos_left n (Nat.pow_pos (by decide))
  rw [Nat.ofDigitChars_eq_ofDigitChars_zero]
  omega

/-- Digits that make a number of 64 bits are all taken. -/
theorem takeDigits_of_lt {ds : List Char} {n : ℕ} (h : Nat.ofDigitChars 10 ds n < 2 ^ 64) :
    takeDigits n ds = (Nat.ofDigitChars 10 ds n, []) := by
  induction ds generalizing n with
  | nil => rfl
  | cons c ds ih =>
    rw [Nat.ofDigitChars_cons] at h ⊢
    have hnext := (le_ofDigitChars ds _).trans_lt h
    simp only [takeDigits, if_pos hnext]
    exact ih h

/-- A character that stands for itself between quotation marks. -/
def StandsForItself (c : Char) : Prop :=
  c ≠ '"' ∧ c ≠ '\\' ∧ 0x20 ≤ c.toNat

theorem stringRest_append {cs : List Char} (hcs : ∀ c ∈ cs, StandsForItself c) (rest : List Char)
    {count : ℕ} (hcount : cs.length ≤ count) (read : List Char) :
    stringRest count read (cs ++ '"' :: rest) =
      some (String.ofList (read.reverse ++ cs), rest) := by
  induction cs generalizing count read with
  | nil =>
    rw [List.nil_append, stringRest, List.append_nil]
  | cons c cs ih =>
    obtain ⟨hquote, hescape, hcontrol⟩ := hcs c List.mem_cons_self
    obtain ⟨count, rfl⟩ : ∃ n, count = n + 1 := Nat.exists_eq_add_of_le' (by simp at hcount; omega)
    have hrest := ih (fun d hd => hcs d (List.mem_cons_of_mem _ hd)) (by simpa using hcount)
      (c :: read)
    rw [List.cons_append, stringRest, if_neg (Nat.not_lt.mpr hcontrol), hrest, List.reverse_cons,
      List.append_assoc, List.singleton_append]
    · exact hquote
    · exact hescape

/-- Plain characters between quotation marks are a string. -/
theorem value_quoted {cs : List Char} (hcs : ∀ c ∈ cs, StandsForItself c) (rest : List Char)
    (depth : ℕ) :
    value depth ('"' :: (cs ++ '"' :: rest)) = some (.string (String.ofList cs), rest) := by
  have hcount : cs.length ≤ (cs ++ '"' :: rest).length := by simp
  have hread := stringRest_append hcs rest hcount []
  unfold value
  change (string (cs ++ '"' :: rest)).map _ = _
  rw [string, hread]
  rfl

end Json.Scan

namespace Numeral

open Json.Scan Text

variable {t : Numeral}

/-- The value that is read from a numeral in a document. -/
def json? (t : Numeral) : Option Json :=
  numberValue? t.negative t.whole t.fraction (t.power.map (·.value))

/-- No digit is dropped from a number of 64 bits. -/
theorem floatValue?_eq (h : t.digits < 2 ^ 64) :
    floatValue? t.negative t.whole t.fraction ((t.power.map (·.value)).getD 0) =
      Binary64.ofDecimal? t.negative t.digits t.exponent := by
  have happend : t.digits =
      Nat.ofDigitChars 10 t.fraction (Nat.ofDigitChars 10 t.whole 0) := Nat.ofDigitChars_append 0
  have hfraction : Nat.ofDigitChars 10 t.fraction (Nat.ofDigitChars 10 t.whole 0) < 2 ^ 64 :=
    happend ▸ h
  have hwhole := (le_ofDigitChars t.fraction _).trans_lt hfraction
  rw [floatValue?, takeDigits_of_lt hwhole]
  simp only [takeDigits_of_lt hfraction]
  rw [happend, exponent, List.length_nil, Nat.cast_zero, add_zero, sub_zero]

theorem of_head_power {rest : List Char} (hrest : EndsNumber rest) (power : Option PowerOfTen) :
    ∀ c ∈ ((power.map (·.chars)).getD [] ++ rest).head?, c.isDigit = false ∧ c ≠ '.' := by
  intro c hc
  cases power with
  | none => exact ⟨(hrest c hc).1, (hrest c hc).2.1⟩
  | some p =>
    cases hc
    rcases p.isMark with hmark | hmark <;> rw [hmark] <;> decide

theorem of_head_fraction {rest : List Char} (hrest : ∀ c ∈ rest.head?, c.isDigit = false)
    (fraction : List Char) :
    ∀ c ∈ ((if fraction = [] then [] else '.' :: fraction) ++ rest).head?, c.isDigit = false := by
  intro c hc
  split at hc
  · exact hrest c hc
  · cases hc
    rfl

theorem number_append (hwhole : IsWhole t.whole) {rest : List Char} (hrest : EndsNumber rest) :
    number (t.chars ++ rest) = t.json?.map (·, rest) := by
  have hpower := of_head_power hrest t.power
  have hfraction := of_head_fraction (fun c hc => (hpower c hc).1) t.fraction
  have hread := wholeDigits_append t.whole_ne_nil
    (fun c hc => t.isDigit c (List.mem_append_left _ hc)) hwhole hfraction
  have hchars : t.chars ++ rest = (if t.negative then ['-'] else []) ++ (t.whole ++
      ((if t.fraction = [] then [] else '.' :: t.fraction) ++
        ((t.power.map (·.chars)).getD [] ++ rest))) := by
    simp only [chars, unsignedChars, List.append_assoc]
  obtain ⟨c, ds, hcons, hc⟩ := t.exists_whole_cons
  have hnosign : ∀ cs after, t.whole ++ after ≠ '-' :: cs := by
    intro cs after heq
    rw [hcons] at heq
    cases heq
    exact absurd hc (by decide)
  rw [hchars, json?]
  unfold number
  cases hsign : t.negative with
  | true =>
    simp only [if_true, List.singleton_append, hread, Option.bind_eq_bind, Option.bind_some,
      fractionDigits_append hpower, exponentPart_append _ hrest]
    cases numberValue? true t.whole t.fraction (t.power.map (·.value)) <;> rfl
  | false =>
    simp only [Bool.false_eq_true, if_false, List.nil_append]
    split
    · rename_i heq
      exact absurd heq (hnosign _ _)
    · simp only [hread, Option.bind_eq_bind, Option.bind_some, fractionDigits_append hpower,
        exponentPart_append _ hrest]
      cases numberValue? false t.whole t.fraction (t.power.map (·.value)) <;> rfl

/-- A numeral begins like a number. -/
theorem exists_chars_cons (t : Numeral) :
    ∃ c cs, t.chars = c :: cs ∧ (c = '-' ∨ c.isDigit = true) := by
  rw [chars]
  cases hsign : t.negative with
  | true => exact ⟨'-', _, rfl, .inl rfl⟩
  | false =>
    obtain ⟨c, ds, hwhole, hc⟩ := t.exists_whole_cons
    rw [unsignedChars, hwhole]
    exact ⟨c, _, rfl, .inr hc⟩

/-- A numeral is a value of a document, wherever the document has it. -/
theorem value_append (hwhole : IsWhole t.whole) {rest : List Char} (hrest : EndsNumber rest)
    (depth : ℕ) : Json.Scan.value depth (t.chars ++ rest) = t.json?.map (·, rest) := by
  obtain ⟨c, cs, hchars, hc⟩ := t.exists_chars_cons
  have hspace : isSpace c = false := by
    rcases hc with rfl | hc
    · rfl
    · simp only [isSpace, Bool.or_eq_false_iff, decide_eq_false_iff_not]
      refine ⟨⟨⟨?_, ?_⟩, ?_⟩, ?_⟩ <;> (rintro rfl; exact absurd hc (by decide))
  have hskip : skipSpace (t.chars ++ rest) = t.chars ++ rest := by
    rw [hchars, List.cons_append]
    exact List.dropWhile_cons_of_neg (by simp [hspace])
  have hother : ∀ c' after, c' ≠ '-' → c'.isDigit = false → t.chars ++ rest ≠ c' :: after := by
    intro c' after hsign hdigit heq
    rw [hchars] at heq
    cases heq
    rcases hc with hc | hc
    · exact hsign hc
    · rw [hdigit] at hc
      cases hc
  rw [← number_append hwhole hrest]
  unfold Json.Scan.value
  rw [hskip]
  split
  · exact absurd ‹_› (hother 'n' _ (by decide) rfl)
  · exact absurd ‹_› (hother 't' _ (by decide) rfl)
  · exact absurd ‹_› (hother 'f' _ (by decide) rfl)
  · exact absurd ‹_› (hother '"' _ (by decide) rfl)
  · exact absurd ‹_› (hother '[' _ (by decide) rfl)
  · exact absurd ‹_› (hother '\x7b' _ (by decide) rfl)
  · rfl

theorem standsForItself_of_mem_chars {c : Char} (h : c ∈ t.chars) : StandsForItself c := by
  have hother : ∀ c ∈ ['-', '.', 'e', 'E', '+'], StandsForItself c := by
    simp [StandsForItself]
  rcases of_mem_chars h with hc | hc
  · refine ⟨?_, ?_, ?_⟩
    · rintro rfl
      exact absurd hc (by decide)
    · rintro rfl
      exact absurd hc (by decide)
    · have hrange := toNat_of_isDigit hc
      omega
  · exact hother c hc

end Numeral

end Verdict
