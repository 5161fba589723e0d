import Verdict.Proofs.DocumentPlaces
import Verdict.Proofs.Restatement
import Verdict.Proofs.WrittenNumbers

/-!
# Numbers and their texts in documents

A document can give a decimal as a number or as the text of this number. The text is read digit by
digit. The number is one of 64 bits, or else a binary number whose shortest digits are read. Both
documents state the same facts if the number is a whole one of 64 bits or a short one. Of a number
with more digits or a larger power of ten, digits can get lost on the way through the binary number,
and the decision with them.
-/

namespace Verdict

open Json.Scan

namespace Numeral

variable {t : Numeral}

/-- The characters of a numeral between quotation marks. -/
def quoted (t : Numeral) : List Char :=
  '"' :: (t.chars ++ ['"'])

theorem isValue_chars (hwhole : IsWhole t.whole) {v : Json} (h : t.json? = some v) :
    IsValue t.chars v := by
  intro depth rest hrest
  rw [value_append hwhole hrest, h, Option.map_some]

theorem isValue_quoted (t : Numeral) : IsValue t.quoted (.string t.text) :=
  Json.Scan.isValue_quoted fun _ => standsForItself_of_mem_chars

end Numeral

/-- The same document with a numeral as a number and as a string in one place. -/
structure SpelledTwice (t : Numeral) (path : List String) (facts facts' : Json) : Prop where
  number : ∃ v, facts.at? path = some v ∧ v.kind = .number ∧ Numeral.ReadAs v t.value
  string : facts'.at? path = some (.string t.text) ∧ Numeral.ReadAs (.string t.text) t.value

/-- A numeral whose value is that of a decimal states the same facts as a number and as a string,
and the decision is the same. The numeral is a whole number of 64 bits or a short one, and a power
of ten is within the places of a decimal. -/
theorem decided_alike_of_isShort {t : Numeral} (hwhole : IsWhole t.whole)
    (hexact : Decimal.IsExact t.value) (hpower : t.PowerFits) (hshort : t.IsWord ∨ t.IsShort)
    {d : Domain} {field : Field} (hfield : (field, .decimal) ∈ d.readers) {s : Spelling}
    (hs : s ∈ field.spellings) {before after : List Char} {request : Json}
    (hplace : Place Json.nestingLimit before after s.path request) :
    ∃ facts facts', Json.parse? (String.ofList (before ++ (t.chars ++ after))) = some facts ∧
      Json.parse? (String.ofList (before ++ (t.quoted ++ after))) = some facts' ∧
      SpelledTwice t s.path facts facts' ∧
      Alike FactRecord.Same (FactRecord.assemble d facts) (FactRecord.assemble d facts') ∧
      ∀ name mode, Domain.ofName? name = some d →
        Alike (fun report report' => report'.decision = report.decision)
          (decideRequest name facts mode) (decideRequest name facts' mode) := by
  obtain ⟨v, hjson, hread⟩ := Numeral.readAs_json hshort hexact
  have hstring := Numeral.readAs_string hexact hpower
  obtain ⟨a, ha, hvalue⟩ := id hread
  obtain ⟨b, hb, hvalue'⟩ := id hstring
  have hone : v.StateOne (.string t.text) := ⟨a, b, ha, hb, hvalue.trans hvalue'.symm⟩
  have halike := FactRecord.assemble_insertAt_alike hfield rfl hs hone request
  have hat := fun w : Json => Json.at?_insertAt_append w s.path [] request
  simp only [List.append_nil] at hat
  refine ⟨_, _, hplace.parse?_eq (Numeral.isValue_chars hwhole hjson),
    hplace.parse?_eq t.isValue_quoted,
    ⟨⟨v, hat v, Numeral.kind_of_json? hjson, hread⟩, hat _, hstring⟩, halike, ?_⟩
  intro name mode hname
  rw [decideRequest, decideRequest, hname]
  refine halike.bind fun r r' hsame => ?_
  obtain ⟨report, hreport, hdecision⟩ := r.exists_decide mode
  obtain ⟨report', hreport', hdecision'⟩ := r'.exists_decide mode
  rw [hreport, hreport']
  exact .ok (by rw [hdecision, hdecision', hsame.judge mode])

/-- A fraction with the parts of a decimal is the value of one. -/
theorem isExact_of_eq {t : Numeral} {n scale : ℕ} (hn : n < 2 ^ 96) (hscale : scale ≤ 28)
    (h : t.value = n / 10 ^ scale) : Decimal.IsExact t.value := by
  obtain ⟨d, -, hd⟩ : ∃ d, Decimal.ofParts? false n scale = some d ∧
      d.value = Decimal.withSign false n / 10 ^ scale := Decimal.value_of_ofParts? hn hscale
  exact ⟨d, by rw [hd, h, Decimal.withSign, if_neg Bool.false_ne_true, Int.cast_natCast]⟩

/-- The number two thousand, written with a power of ten. -/
def twoThousand : Numeral where
  negative := false
  whole := ['2']
  fraction := []
  power := some (.lower none ['3'] (by simp) (List.all_eq_true.mp rfl) (by decide))
  whole_ne_nil := by decide
  isDigit := List.all_eq_true.mp rfl

theorem isExact_twoThousand : Decimal.IsExact twoThousand.value ∧ twoThousand.PowerFits := by
  have hvalue : twoThousand.value = (2000 : ℕ) / 10 ^ 0 := by
    have hparts : twoThousand.value = (2 : ℕ) * 10 ^ (3 : ℤ) := rfl
    rw [hparts]
    norm_num
  have hplain : twoThousand.plain.value = (2 : ℕ) / 10 ^ 0 := by
    have hparts : twoThousand.plain.value = (2 : ℕ) * 10 ^ (0 : ℤ) := rfl
    rw [hparts]
    norm_num
  refine ⟨isExact_of_eq (by decide) (Nat.zero_le 28) hvalue, ?_⟩
  rintro _ ⟨⟩
  exact ⟨by decide, isExact_of_eq (by decide) (Nat.zero_le 28) hplain⟩

/-- What stands before the balance in the text of a payment. -/
def beforeBalance : List Char :=
  "\x7b\"account\": \x7b\"available\": ".toList

/-- What stands after the balance in the text of a payment. -/
def afterBalance : List Char :=
  "\x7d, \"amount\":\"950.50\"\x7d".toList

/-- The payment, whatever its balance. -/
def balanceRequest : Json :=
  .ofMembers [("account", .ofMembers [("available", .null)]), ("amount", .string "950.50")]

theorem place_balance :
    Place Json.nestingLimit beforeBalance afterBalance ["account", "available"] balanceRequest := by
  have hplain : (∀ c ∈ "account".toList, StandsForItself c) ∧
      (∀ c ∈ "available".toList, StandsForItself c) ∧ (∀ c ∈ "amount".toList, StandsForItself c) ∧
        ∀ c ∈ "950.50".toList, StandsForItself c := by
    simp [StandsForItself]
  obtain ⟨haccount, havailable, hamount, htext⟩ := hplain
  have hspace : ∀ c ∈ [' '], isSpace c = true := List.all_eq_true.mp rfl
  have hnone : ∀ c ∈ ([] : List Char), isSpace c = true := List.forall_mem_nil _
  have hmember := isItem_member (isKey_plain hamount hspace hnone) (isValue_quoted htext)
  have hbalance : Place 125 [' '] [] [] .null := .here hspace hnone .null
  have hinner := hbalance.inside hspace hnone .nil (isKey_plain havailable hnone hnone) .nil
    (by simp)
  have hdocument := hinner.inside hnone hnone .nil (isKey_plain haccount hnone hnone)
    (.cons (hmember 126) .nil) (by simp)
  rw [String.ofList_toList] at hdocument
  have hbefore : beforeBalance = '\x7b' :: ('"' :: ("account".toList ++ ['"', ':']) ++ ' ' ::
      '\x7b' :: ('"' :: ("available".toList ++ ['"', ':']) ++ [' '])) := by decide +kernel
  have hafter : afterBalance = '\x7d' :: ',' :: (' ' :: '"' :: ("amount".toList ++ ['"', ':']) ++
      '"' :: ("950.50".toList ++ ['"']) ++ ['\x7d']) := by decide +kernel
  rw [hbefore, hafter]
  exact hdocument

theorem decided_alike_of_isShort_twoThousand :
    Place Json.nestingLimit beforeBalance afterBalance ["account", "available"] balanceRequest ∧
      ∃ facts facts',
        Json.parse? "\x7b\"account\": \x7b\"available\": 2e3\x7d, \"amount\":\"950.50\"\x7d" =
          some facts ∧
        Json.parse? "\x7b\"account\": \x7b\"available\": \"2e3\"\x7d, \"amount\":\"950.50\"\x7d" =
          some facts' ∧
        Alike FactRecord.Same (FactRecord.assemble .authorization facts)
          (FactRecord.assemble .authorization facts') := by
  have hshort : twoThousand.IsShort := ⟨⟨2, 0, by decide, rfl⟩, by decide, by decide⟩
  have hfield : (Field.availableBalance, Value.Kind.decimal) ∈ Domain.authorization.readers := by
    simp [Domain.readers]
  have hspelling : ⟨["account", "available"], false⟩ ∈ Field.availableBalance.spellings := by decide
  obtain ⟨facts, facts', hnumber, hstring, -, halike, -⟩ := decided_alike_of_isShort
    (.inr (by decide)) isExact_twoThousand.1 isExact_twoThousand.2 (.inr hshort) hfield hspelling
    place_balance
  refine ⟨place_balance, facts, facts', ?_, ?_, halike⟩
  · rw [← hnumber]
    exact congrArg Json.parse? (by decide +kernel)
  · rw [← hstring]
    exact congrArg Json.parse? (by decide +kernel)

/-- An amount that is a little more than a thousand. -/
def littleMore : Numeral where
  negative := false
  whole := ['1', '0', '0', '0']
  fraction := List.replicate 15 '0' ++ ['1']
  power := none
  whole_ne_nil := by decide
  isDigit := List.all_eq_true.mp rfl

/-- A number of one digit, with a power of ten that is no number of the binary format. -/
def tripled : Numeral where
  negative := false
  whole := ['3']
  fraction := []
  power := some (.lower none ['2', '6'] (by simp) (List.all_eq_true.mp rfl) (by decide))
  whole_ne_nil := by decide
  isDigit := List.all_eq_true.mp rfl

/-- A power of ten, written with another one that is beyond the places of decimals. -/
def enlarged : Numeral where
  negative := false
  whole := ['0']
  fraction := List.replicate 9 '0' ++ ['1']
  power := some (.lower none ['2', '9'] (by simp) (List.all_eq_true.mp rfl) (by decide))
  whole_ne_nil := by decide
  isDigit := List.all_eq_true.mp rfl

/-- A payment with a limit of a thousand and the amount that is put in. -/
def limitedPayment (amount : List Char) : String :=
  String.ofList ("\x7b\"amount\":".toList ++ amount ++
    ",\"available_balance\":5000,\"card_not_present\":false,\"credit_limit\":1000".toList ++
    ",\"merchant_category_code\":5411,\"risk_score\":\"0.2\",\"velocity_1h\":1\x7d".toList)

/-- The facts of the payment. -/
def limitedFacts (amount : Option Decimal) : AuthorizationFacts where
  amount := amount
  availableBalance := Decimal.ofParts? false 5000 0
  creditLimit := Decimal.ofParts? false 1000 0
  riskScore := Decimal.ofParts? false 2 1
  merchantCategoryCode := some 5411
  cardNotPresent := some false
  velocity := some 1

/-- A payment of which only the amount is stated. -/
def barePayment (amount : List Char) : String :=
  String.ofList ("\x7b\"amount\":".toList ++ amount ++ ['\x7d'])

/-- The facts of the payment. -/
def bareFacts (amount : Option Decimal) : AuthorizationFacts :=
  ⟨amount, none, none, none, none, none, none⟩

/-- A number loses the digit with which its text is above a limit, so that one document is approved
and the other one is declined. A number of one digit is read as a larger one, because of its power
of ten. A short number is read where its text is not, because of the power of ten with which both
are written. -/
theorem number_and_text_apart :
    (IsWhole littleMore.whole ∧ Decimal.IsExact littleMore.value ∧ littleMore.PowerFits ∧
      (Json.parse? (limitedPayment littleMore.chars)).map (FactRecord.assemble .authorization) =
        some (.ok (.authorization (limitedFacts (Decimal.ofParts? false 10000 1)))) ∧
      (Json.parse? (limitedPayment littleMore.quoted)).map (FactRecord.assemble .authorization) =
        some (.ok (.authorization (limitedFacts (Decimal.ofParts? false (10 ^ 19 + 1) 16)))) ∧
      (FactRecord.authorization (limitedFacts (Decimal.ofParts? false 10000 1))).verify.decision =
        .approveNoOtp ∧
      (FactRecord.authorization
        (limitedFacts (Decimal.ofParts? false (10 ^ 19 + 1) 16))).verify.decision = .decline) ∧
    (IsWhole tripled.whole ∧ Decimal.IsExact tripled.value ∧ tripled.PowerFits ∧
      (Json.parse? (barePayment tripled.chars)).map (FactRecord.assemble .authorization) =
        some (.ok (.authorization
          (bareFacts (Decimal.ofParts? false (3 * 10 ^ 26 + 3 * 10 ^ 10) 0)))) ∧
      (Json.parse? (barePayment tripled.quoted)).map (FactRecord.assemble .authorization) =
        some (.ok (.authorization (bareFacts (Decimal.ofParts? false (3 * 10 ^ 26) 0))))) ∧
    IsWhole enlarged.whole ∧ Decimal.IsExact enlarged.value ∧ enlarged.IsShort ∧
      (Json.parse? (barePayment enlarged.chars)).map (FactRecord.assemble .authorization) =
        some (.ok (.authorization (bareFacts (Decimal.ofParts? false (10 ^ 19) 0)))) ∧
      (Json.parse? (barePayment enlarged.quoted)).map (FactRecord.assemble .authorization) =
        some (.error (.typeMismatch "amount" .decimal .string)) := by
  have hmore : littleMore.value = (10 ^ 19 + 1 : ℕ) / 10 ^ 16 := by
    have hparts : littleMore.value = (10 ^ 19 + 1 : ℕ) * 10 ^ (-16 : ℤ) := rfl
    rw [hparts]
    norm_num
  have htripled : tripled.value = (3 * 10 ^ 26 : ℕ) / 10 ^ 0 := by
    have hparts : tripled.value = (3 : ℕ) * 10 ^ (26 : ℤ) := rfl
    rw [hparts]
    norm_num
  have hthree : tripled.plain.value = (3 : ℕ) / 10 ^ 0 := by
    have hparts : tripled.plain.value = (3 : ℕ) * 10 ^ (0 : ℤ) := rfl
    rw [hparts]
    norm_num
  have henlarged : enlarged.value = (10 ^ 19 : ℕ) / 10 ^ 0 := by
    have hparts : enlarged.value = (1 : ℕ) * 10 ^ (19 : ℤ) := rfl
    rw [hparts]
    norm_num
  have hfits : tripled.PowerFits := by
    rintro _ ⟨⟩
    exact ⟨by decide, isExact_of_eq (by decide) (Nat.zero_le 28) hthree⟩
  have hshort : enlarged.IsShort := ⟨⟨1, 0, by decide, rfl⟩, by decide, by decide⟩
  refine ⟨⟨.inr (by decide), isExact_of_eq (by decide) (by decide) hmore,
      Numeral.powerFits_of_none rfl, ?_, ?_, ?_, ?_⟩,
    ⟨.inr (by decide), isExact_of_eq (by decide) (Nat.zero_le 28) htripled, hfits, ?_, ?_⟩,
    .inl rfl, isExact_of_eq (by decide) (Nat.zero_le 28) henlarged, hshort, ?_, ?_⟩ <;>
      decide +kernel

end Verdict
