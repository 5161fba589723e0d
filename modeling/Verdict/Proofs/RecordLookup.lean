import Mathlib.Data.List.Forall2
import Mathlib.Data.List.Nodup
import Verdict.Fact.Record

/-!
# Looking up the facts of a record

A record lists its facts by name. The set of its known facts and the members of its flat object
are built entry by entry, and both give back at each name what the list has there.
-/

namespace Verdict

namespace Keyed

universe u

variable {α : Type u}

/-- Where no two elements have the same key, each one is found by its key. -/
theorem find?_of_nodup {key : α → String} {elements : List α} (h : (elements.map key).Nodup)
    {element : α} (hmem : element ∈ elements) :
    elements.find? (fun other => key other == key element) = some element := by
  have hfound : (elements.find? fun other => key other == key element).isSome :=
    List.find?_isSome.mpr ⟨element, hmem, beq_self_eq_true _⟩
  obtain ⟨other, hother⟩ := Option.isSome_iff_exists.mp hfound
  have hkey : key other = key element := by simpa using List.find?_some hother
  rw [hother, List.inj_on_of_nodup_map h (List.mem_of_find?_eq_some hother) hmem hkey]

theorem lookup_eq_none_of_not_mem {entries : List (String × α)} {key : String}
    (h : key ∉ entries.map (·.1)) : entries.lookup key = none := by
  rw [List.lookup_eq_none_iff]
  intro entry hentry
  rw [bne_iff_ne]
  rintro rfl
  exact h (List.mem_map_of_mem hentry)

theorem mem_of_lookup_eq_some {entries : List (String × α)} {key : String} {value : α}
    (h : entries.lookup key = some value) : key ∈ entries.map (·.1) := by
  by_contra hkey
  rw [lookup_eq_none_of_not_mem hkey] at h
  cases h

theorem lookup_of_mem {entries : List (String × α)} (h : (entries.map (·.1)).Nodup)
    {entry : String × α} (hmem : entry ∈ entries) : entries.lookup entry.1 = some entry.2 := by
  induction entries with
  | nil => exact absurd hmem List.not_mem_nil
  | cons first rest ih =>
    obtain ⟨hnot, hnodup⟩ := List.nodup_cons.mp h
    rw [lookup_cons_eq]
    rcases List.mem_cons.mp hmem with rfl | hmem
    · rw [if_pos rfl]
    · have hkey : entry.1 ≠ first.1 := by
        intro hkey
        exact hnot (List.mem_map.mpr ⟨entry, hmem, hkey⟩)
      rw [if_neg hkey, ih hnodup hmem]

/-- Insertions at two keys can change places. -/
theorem lookup_insert_comm {key key' : String} (h : key ≠ key') (value value' : α)
    (entries : List (String × α)) (other : String) :
    (insert key value (insert key' value' entries)).lookup other =
      (insert key' value' (insert key value entries)).lookup other := by
  simp only [lookup_insert]
  by_cases hkey : other = key
  · rw [if_pos hkey, if_pos hkey, if_neg (hkey ▸ h)]
  · rw [if_neg hkey, if_neg hkey]

theorem lookup_map_entry {β : Type u} (f : String → α → β) (entries : List (String × α))
    (key : String) :
    (entries.map fun entry => (entry.1, f entry.1 entry.2)).lookup key =
      (entries.lookup key).map (f key) := by
  induction entries with
  | nil => rfl
  | cons entry rest ih =>
    rw [List.map_cons, lookup_cons_eq, lookup_cons_eq, ih]
    split <;> simp_all

theorem lookup_map_snd {β : Type u} (f : α → β) (entries : List (String × α)) (key : String) :
    (entries.map fun entry => (entry.1, f entry.2)).lookup key = (entries.lookup key).map f :=
  lookup_map_entry (fun _ => f) entries key

/-- Lists with the same keys, entry by entry, are related at each key. -/
theorem rel_lookup {β : Type u} {R : α → β → Prop} {entries : List (String × α)}
    {entries' : List (String × β)}
    (h : List.Forall₂ (fun entry entry' => entry'.1 = entry.1 ∧ R entry.2 entry'.2)
      entries entries') (key : String) : Option.Rel R (entries.lookup key) (entries'.lookup key) := by
  induction h with
  | nil => exact .none
  | cons hentry _ ih =>
    obtain ⟨hkey, hR⟩ := hentry
    rw [lookup_cons_eq, lookup_cons_eq, hkey]
    split
    · exact .some hR
    · exact ih

theorem lookup_foldl_insert (entries found : List (String × α)) (key : String)
    (h : (entries.map (·.1)).Nodup) :
    (entries.foldl (fun found entry => insert entry.1 entry.2 found) found).lookup key =
      (entries.lookup key).or (found.lookup key) := by
  induction entries generalizing found with
  | nil => rfl
  | cons entry rest ih =>
    obtain ⟨hnot, hnodup⟩ := List.nodup_cons.mp h
    rw [List.foldl_cons, ih _ hnodup, lookup_insert, lookup_cons_eq]
    by_cases hkey : key = entry.1
    · rw [if_pos hkey, if_pos hkey, hkey, lookup_eq_none_of_not_mem hnot]
      rfl
    · rw [if_neg hkey, if_neg hkey]

/-- Entries with different keys are all found in the list that is ordered by key. -/
theorem lookup_ofList {entries : List (String × α)} (h : (entries.map (·.1)).Nodup)
    (key : String) : (ofList entries).lookup key = entries.lookup key := by
  rw [ofList, lookup_foldl_insert entries [] key h, List.lookup_nil, Option.or_none]

end Keyed

namespace FactSet

theorem get?_foldl_insert (fields : List (String × Option Value)) (set : FactSet) (fact : String)
    (h : (fields.map (·.1)).Nodup) :
    (fields.foldl (fun set field => match field.2 with
      | some value => set.insert field.1 value
      | none => set) set).get? fact = (fields.lookup fact).join.or (set.get? fact) := by
  induction fields generalizing set with
  | nil => rfl
  | cons field rest ih =>
    obtain ⟨name, value⟩ := field
    obtain ⟨hnot, hnodup⟩ := List.nodup_cons.mp h
    rw [List.foldl_cons, ih _ hnodup, Keyed.lookup_cons_eq]
    by_cases hname : fact = name
    · rw [if_pos hname, hname, Keyed.lookup_eq_none_of_not_mem hnot]
      cases value <;> simp [get?_insert]
    · rw [if_neg hname]
      cases value <;> simp [get?_insert, hname]

/-- A set of known facts has the values that its list has. -/
theorem get?_ofOptions {fields : List (String × Option Value)}
    (h : (fields.map (·.1)).Nodup) (fact : String) :
    (ofOptions fields).get? fact = (fields.lookup fact).join := by
  have hempty := get?_foldl_insert fields empty fact h
  rw [get?_empty, Option.or_none] at hempty
  exact hempty

end FactSet

namespace FactRecord

/-- The value of a fact in a document, which is null for an unknown one. -/
def stated (value : Option Value) : Json :=
  (value.map Value.toJson).getD .null

theorem nodup_fields (r : FactRecord) : (r.fields.map (·.1)).Nodup := by
  cases r with
  | authorization f =>
    simp only [fields, AuthorizationFacts.fields, List.map_cons, List.map_nil]
    decide
  | dispute f =>
    simp only [fields, DisputeFacts.fields, List.map_cons, List.map_nil]
    decide
  | creditLineIncrease f =>
    simp only [fields, CreditLineFacts.fields, List.map_cons, List.map_nil]
    decide

theorem get?_known (r : FactRecord) (fact : String) :
    r.known.get? fact = (r.fields.lookup fact).join :=
  FactSet.get?_ofOptions r.nodup_fields fact

theorem get?_known_of_lookup {r : FactRecord} {fact : String} {value : Option Value}
    (h : r.fields.lookup fact = some value) : r.known.get? fact = value := by
  rw [get?_known, h, Option.join_some]

theorem lookup_members (r : FactRecord) (fact : String) :
    r.members.lookup fact = (r.fields.lookup fact).map stated := by
  have hnodup : ((r.fields.map fun field => (field.1, stated field.2)).map (·.1)).Nodup := by
    rw [List.map_map]
    exact r.nodup_fields
  rw [← Keyed.lookup_map_snd]
  exact Keyed.lookup_ofList hnodup fact

end FactRecord

end Verdict
