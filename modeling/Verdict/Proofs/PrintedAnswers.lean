import Verdict.Command.Response
import Verdict.Proofs.DocumentPlaces
import Verdict.Proofs.Results
import Mathlib.Tactic.IntervalCases

/-!
# What the command prints

An answer is printed as its text or as an object over several lines. A failure is printed as its
message, or as an object on one line from which a reader of documents gets the message back. Nothing
that is printed is empty.
-/

namespace Verdict

/-! ## Strings between quotation marks -/

namespace Json

open Scan

/-- How a character is written: by a letter, by its number, or as it is. -/
theorem escaped_cases (c : Char) :
    (∃ letter, (escaped c).toList = ['\\', letter] ∧ letter ≠ 'u' ∧ letter ≠ '\n' ∧
        shortEscapes.lookup letter = some c) ∨
      (∃ code, (escaped c).toList = '\\' :: 'u' :: code ∧ '\n' ∉ code ∧ c.toNat < 0x20 ∧
        ∀ rest, codeUnit (code ++ rest) = some (c.toNat, rest)) ∨
      (escaped c).toList = [c] ∧ StandsForItself c := by
  by_cases hshort : c ∈ escapes.map (·.1)
  · simp only [escapes, List.map_cons, List.map_nil, List.mem_cons, List.not_mem_nil, or_false]
      at hshort
    rcases hshort with rfl | rfl | rfl | rfl | rfl | rfl | rfl <;>
      exact .inl ⟨_, rfl, by decide, by decide, rfl⟩
  have hlookup : escapes.lookup c = none := by
    rw [List.lookup_eq_none_iff]
    intro entry hentry
    rw [bne_iff_ne]
    rintro rfl
    exact hshort (List.mem_map_of_mem hentry)
  rw [escaped, hlookup]
  by_cases hcontrol : c.toNat < 0x20
  · simp only [if_pos hcontrol]
    refine .inr (.inl ⟨(Nat.toDigits 16 c.toNat).leftpad 4 '0', by simp, ?_, hcontrol, ?_⟩)
    · generalize c.toNat = n at hcontrol
      interval_cases n <;> decide
    · intro rest
      generalize c.toNat = n at hcontrol
      interval_cases n <;> rfl
  · simp only [if_neg hcontrol]
    simp only [escapes, List.map_cons, List.map_nil, List.mem_cons, List.not_mem_nil, or_false,
      not_or] at hshort
    exact .inr (.inr ⟨by simp, hshort.1, hshort.2.1, Nat.not_lt.mp hcontrol⟩)

theorem newline_notMem_escaped (c : Char) : '\n' ∉ (escaped c).toList := by
  rcases escaped_cases c with
    ⟨letter, hc, -, hletter, -⟩ | ⟨code, hc, hcode, -⟩ | ⟨hc, -, -, hplain⟩
  · rw [hc]
    simpa using hletter.symm
  · rw [hc]
    simpa using hcode
  · rw [hc, List.mem_singleton]
    rintro rfl
    exact absurd hplain (by decide)

theorem toList_quoted (s : String) :
    (quoted s).toList = '"' :: (s.toList.flatMap (fun c => (escaped c).toList) ++ ['"']) := by
  simp [quoted, String.toList_join, List.flatMap_map]

theorem newline_notMem_quoted (s : String) : '\n' ∉ (quoted s).toList := by
  rw [toList_quoted]
  simpa using fun c _ => newline_notMem_escaped c

namespace Scan

/-- A character is read back from what stands for it. -/
theorem stringRest_escaped (count : ℕ) (read : List Char) (c : Char) (cs : List Char) :
    stringRest (count + 1) read ((escaped c).toList ++ cs) = stringRest count (c :: read) cs := by
  rcases escaped_cases c with
    ⟨letter, hc, hletter, -, hmeant⟩ | ⟨code, hc, -, hcontrol, hcode⟩ | ⟨hc, hquote, hescape, hplain⟩
  · rw [hc, List.cons_append, List.singleton_append, stringRest, escape, hmeant]
    · rfl
    · exact hletter
  · have hchar : unitChar (code ++ cs) = some (c, cs) := by
      rw [unitChar, hcode]
      simp only [Option.bind_eq_bind, Option.bind_some, Char.ofNat_toNat]
      exact if_pos (.inl (hcontrol.trans (by decide)))
    rw [hc, List.cons_append, List.cons_append, stringRest, escape, hchar]
    rfl
  · rw [hc, List.singleton_append, stringRest, if_neg (Nat.not_lt.mpr hplain)]
    · exact hquote
    · exact hescape

/-- A string is read back from what stands for its characters. -/
theorem stringRest_quoted (cs rest : List Char) {count : ℕ} (hcount : cs.length ≤ count)
    (read : List Char) :
    stringRest count read (cs.flatMap (fun c => (escaped c).toList) ++ '"' :: rest) =
      some (String.ofList (read.reverse ++ cs), rest) := by
  induction cs generalizing count read with
  | nil => rw [List.flatMap_nil, List.nil_append, stringRest, List.append_nil]
  | cons c cs ih =>
    obtain ⟨count, rfl⟩ : ∃ n, count = n + 1 :=
      Nat.exists_eq_add_of_le' (by rw [List.length_cons] at hcount; omega)
    rw [List.flatMap_cons, List.append_assoc, stringRest_escaped,
      ih (by simpa using hcount) (c :: read), List.reverse_cons, List.append_assoc,
      List.singleton_append]

/-- A printed string is read back after its opening quotation mark. -/
theorem string_printed (s : String) (rest : List Char) :
    string (s.toList.flatMap (fun c => (escaped c).toList) ++ '"' :: rest) = some (s, rest) := by
  have hone : ∀ c, 1 ≤ (escaped c).toList.length := by
    intro c
    rcases escaped_cases c with ⟨_, hc, -⟩ | ⟨_, hc, -⟩ | ⟨hc, -⟩ <;> simp [hc]
  have hsum := List.length_le_sum_of_one_le (s.toList.map fun c => (escaped c).toList.length)
    (by simpa using fun c _ => hone c)
  have hcount : s.toList.length ≤
      (s.toList.flatMap (fun c => (escaped c).toList) ++ '"' :: rest).length := by
    rw [List.length_map] at hsum
    rw [List.length_append, List.length_flatMap]
    omega
  rw [string, stringRest_quoted s.toList rest hcount [], List.reverse_nil, List.nil_append,
    String.ofList_toList]

theorem isValue_printed (s : String) : IsValue (quoted s).toList (.string s) := by
  intro depth rest _
  rw [toList_quoted, List.cons_append, List.append_assoc, List.singleton_append]
  unfold value
  change (string (_ ++ '"' :: rest)).map _ = _
  rw [string_printed]
  rfl

theorem isKey_printed (key : String) : IsKey ((quoted key).toList ++ [':']) key := by
  intro read rest
  have htext : (quoted key).toList ++ [':'] ++ rest =
      '"' :: (key.toList.flatMap (fun c => (escaped c).toList) ++ '"' :: ':' :: rest) := by
    rw [toList_quoted]
    simp
  have hquote : ∀ cs, skipSpace ('"' :: cs) = '"' :: cs := fun _ => rfl
  have hcolon : ∀ cs, skipSpace (':' :: cs) = ':' :: cs := fun _ => rfl
  rw [htext]
  unfold member
  rw [hquote]
  simp only [Option.bind_eq_bind, string_printed, Option.bind_some, hcolon]
  cases read rest <;> rfl

/-- An object with a string for its only member is read back from its line. -/
theorem parse?_object_string (key s : String) :
    parse? ((object [(key, .string s)]).compact ++ "\n") = some (object [(key, .string s)]) := by
  have hnone : ∀ c ∈ ([] : List Char), isSpace c = true := nofun
  have hend : ∀ c ∈ ['\n'], isSpace c = true := List.all_eq_true.mp rfl
  have hhere : Place 126 [] [] [] .null := .here hnone hnone .null
  have hplace := hhere.inside hnone hend .nil (isKey_printed key) .nil (by simp)
  have htext : (object [(key, .string s)]).compact ++ "\n" = String.ofList
      ([] ++ '\x7b' :: ([] ++ ((quoted key).toList ++ [':'] ++ [])) ++
        ((quoted s).toList ++ ([] ++ (['\x7d'] ++ ['\n'])))) := by
    apply String.toList_injective
    rw [compact, compactMembers, compactMembers, compact]
    simp
  rw [htext, hplace.parse?_eq (isValue_printed s), insertAt_ofMembers (by simp)]
  rfl

end Scan

end Json

/-- An object is printed between braces. -/
theorem Json.exists_pretty_object (members : List (String × Json)) :
    ∃ body, (object members).pretty = "\x7b" ++ body ++ "\x7d" := by
  rw [pretty, prettyFrom, block]
  split
  · exact ⟨"", by rw [String.append_empty]⟩
  · exact ⟨"\n" ++ ",\n".intercalate _ ++ "\n", by simp only [String.append_assoc]; rfl⟩

namespace Command

/-! ## Failures -/

/-- What is written for a failure: a line with its message, or a line with an object from which the
message is read back. -/
def Failure.WrittenAs (f : Failure) (output : String) : Format → Prop
  | .text => output = f.message ++ "\n"
  | .json => Json.parse? output = some (.object [("error", .string f.message)]) ∧
      ∃ line, output = line ++ "\n" ∧ '\n' ∉ line.toList

theorem begins_append {start s : String} (h : start.toList <+: s.toList) (t : String) :
    start.toList <+: (s ++ t).toList := by
  rw [String.toList_append]
  exact h.trans (List.prefix_append _ _)

namespace Failure

theorem writtenAs_errorLine (f : Failure) (format : Format) :
    f.WrittenAs (format.errorLine f.message) format := by
  cases format with
  | text => rfl
  | json =>
    refine ⟨Json.Scan.parse?_object_string "error" f.message, _, rfl, ?_⟩
    rw [Json.compact, Json.compactMembers, Json.compactMembers, Json.compact]
    simp [Json.newline_notMem_quoted]

/-- Every message says first that it is one of an error. -/
theorem begins_message (f : Failure) : "error: ".toList <+: f.message.toList := by
  refine begins_append ?_ _
  cases f with
  | unreadableInput _ =>
    change _ <+: "error: cannot read stdin: ".toList
    decide
  | unreadableFile _ _ => exact begins_append (begins_append (by decide) _) _
  | invalidJson _ _ => exact begins_append (begins_append (by decide) _) _
  | malformedFlip _ => exact begins_append (begins_append (by decide) _) _
  | request error => exact begins_append (by decide) _
  | program cause => exact begins_append (by decide) _

end Failure

/-! ## Answers -/

/-- What is written for an answer: its text, or its object over several lines. -/
def Answer.WrittenAs (a : Answer) (output : String) : Format → Prop
  | .text => output = a.text ∧ output ≠ ""
  | .json => output = a.toJson.pretty ++ "\n" ∧ ∃ body, output = "\x7b" ++ body ++ "\x7d\n"

theorem lines_ne_empty {ls : List String} (h : ls ≠ []) : lines ls ≠ "" := by
  obtain ⟨first, rest, rfl⟩ := List.exists_cons_of_ne_nil h
  rw [lines, List.map_cons, String.join_cons]
  simp

theorem text_program_ne_empty {r : FactRecord} {program : Program} (h : r.program = .ok program) :
    program.text ≠ "" := by
  have hlines : program.text = lines (program.map Statement.text) := by
    rw [lines, List.map_map]
    rfl
  rw [hlines]
  obtain ⟨bindings, -, hprogram⟩ := exists_of_bind_eq_ok h
  cases hprogram
  exact lines_ne_empty (by simp)

theorem Answer.exists_toJson (a : Answer) : ∃ members, a.toJson = .object members := by
  cases a <;> exact ⟨_, rfl⟩

/-- A task has an answer that is not empty. -/
theorem Task.text_ne_empty {content : Content} {task : Task} {answer : Answer}
    (h : task.run content = .ok answer) : answer.text ≠ "" := by
  cases task with
  | verify name path mode =>
    obtain ⟨facts, -, h⟩ := exists_of_bind_eq_ok h
    obtain ⟨report, -, h⟩ := exists_of_bind_eq_ok h
    cases h
    exact lines_ne_empty (by simp)
  | program name path =>
    obtain ⟨d, -, h⟩ := exists_of_bind_eq_ok h
    obtain ⟨facts, -, h⟩ := exists_of_bind_eq_ok h
    obtain ⟨record, -, h⟩ := exists_of_bind_eq_ok h
    obtain ⟨program, hprogram, h⟩ := exists_of_bind_eq_ok h
    cases h
    exact text_program_ne_empty (mapError_eq_ok_iff.mp hprogram)
  | probe name path flip mode =>
    obtain ⟨d, -, h⟩ := exists_of_bind_eq_ok h
    split at h
    · cases h
    · obtain ⟨facts, -, h⟩ := exists_of_bind_eq_ok h
      obtain ⟨record, -, h⟩ := exists_of_bind_eq_ok h
      obtain ⟨unchanged, -, h⟩ := exists_of_bind_eq_ok h
      cases h
      exact lines_ne_empty (by simp)
  | policy name =>
    obtain ⟨d, -, h⟩ := exists_of_bind_eq_ok h
    cases h
    exact lines_ne_empty (by simp)

theorem Task.writtenAs_print {content : Content} {task : Task} {answer : Answer}
    (h : task.run content = .ok answer) (format : Format) :
    answer.WrittenAs (answer.print format) format := by
  cases format with
  | text => exact ⟨rfl, text_ne_empty h⟩
  | json =>
    obtain ⟨members, hmembers⟩ := answer.exists_toJson
    obtain ⟨body, hbody⟩ := Json.exists_pretty_object members
    refine ⟨rfl, body, ?_⟩
    rw [Answer.print, hmembers, hbody, String.append_assoc]
    rfl

end Command

end Verdict
