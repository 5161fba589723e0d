import Mathlib.Data.String.Basic
import Verdict.Proofs.Reassembly

/-!
# Entries stay in key order

An insertion keeps the keys of a list increasing. So it changes places with a filter that lets its
entry through, and entries that a filter takes away need not be inserted. The known facts of a
record are therefore the members of its flat object that are not null, in the same order.
-/

namespace Verdict

namespace Keyed

universe u v

variable {α : Type u} {β : Type v} {key : String} {value : α}
  {entries entries' : List (String × α)}

/-- The keys increase, so no key occurs twice. -/
def Sorted (entries : List (String × α)) : Prop :=
  entries.Pairwise fun entry later => entry.1 < later.1

theorem of_mem_insert {entry : String × α} (h : entry ∈ insert key value entries) :
    entry = (key, value) ∨ entry ∈ entries := by
  induction entries with
  | nil => exact Or.inl (List.mem_singleton.mp h)
  | cons first rest ih =>
    rw [insert] at h
    split at h
    · exact (List.mem_cons.mp h).imp_right (List.mem_cons_of_mem first)
    · split at h
      · exact List.mem_cons.mp h
      · rcases List.mem_cons.mp h with rfl | h
        · exact Or.inr List.mem_cons_self
        · exact (ih h).imp_right (List.mem_cons_of_mem first)

/-- A key that is below the first one is below all of them. -/
theorem Sorted.forall_lt {first : String × α} {rest : List (String × α)}
    (h : Sorted (first :: rest)) (hkey : key < first.1) :
    ∀ entry ∈ first :: rest, key < entry.1 := by
  refine List.forall_mem_cons.mpr ⟨hkey, fun entry hentry => ?_⟩
  exact String.lt_trans hkey (List.rel_of_pairwise_cons h hentry)

theorem Sorted.insert (h : Sorted entries) (key : String) (value : α) :
    Sorted (insert key value entries) := by
  induction entries with
  | nil => exact List.pairwise_singleton _ _
  | cons first rest ih =>
    have hrest : Sorted rest := List.Pairwise.of_cons h
    rw [Keyed.insert]
    split
    · rename_i heq
      refine List.pairwise_cons.mpr ⟨fun entry hentry => ?_, hrest⟩
      rw [heq]
      exact List.rel_of_pairwise_cons h hentry
    · rename_i hne
      split
      · rename_i hlt
        exact List.pairwise_cons.mpr ⟨h.forall_lt hlt, h⟩
      · rename_i hnot
        have hgt : first.1 < key := lt_of_le_of_ne (not_lt.mp hnot) (Ne.symm hne)
        refine List.pairwise_cons.mpr ⟨fun entry hentry => ?_, ih hrest⟩
        rcases of_mem_insert hentry with rfl | hentry
        · exact hgt
        · exact List.rel_of_pairwise_cons h hentry

theorem insert_of_forall_lt (h : ∀ entry ∈ entries, key < entry.1) :
    insert key value entries = (key, value) :: entries := by
  cases entries with
  | nil => rfl
  | cons first rest =>
    have hlt : key < first.1 := h first List.mem_cons_self
    rw [insert, if_neg (ne_of_lt hlt), if_pos hlt]

theorem map_insert (f : α → β) (key : String) (value : α) (entries : List (String × α)) :
    (insert key value entries).map (fun entry => (entry.1, f entry.2)) =
      insert key (f value) (entries.map fun entry => (entry.1, f entry.2)) := by
  induction entries with
  | nil => rfl
  | cons first rest ih =>
    rw [insert, List.map_cons, insert]
    split
    · rfl
    · split
      · rfl
      · rw [List.map_cons, ih]

/-- A filter takes away the new entry or leaves it to be inserted. -/
theorem filter_insert {keep : String × α → Bool} (h : Sorted entries)
    (hnew : key ∉ entries.map (·.1)) :
    (insert key value entries).filter keep =
      if keep (key, value) then insert key value (entries.filter keep)
      else entries.filter keep := by
  induction entries with
  | nil => rw [insert, List.filter_cons, List.filter_nil, insert]
  | cons first rest ih =>
    rw [List.map_cons, List.mem_cons, not_or] at hnew
    rw [insert, if_neg hnew.1]
    split
    · rename_i hlt
      have hall : ∀ entry ∈ (first :: rest).filter keep, key < entry.1 :=
        fun entry hentry => h.forall_lt hlt entry (List.mem_filter.mp hentry).1
      rw [insert_of_forall_lt hall, List.filter_cons]
    · rename_i hnot
      rw [List.filter_cons, List.filter_cons, ih (List.Pairwise.of_cons h) hnew.2]
      split
      · split
        · rw [insert, if_neg hnew.1, if_neg hnot]
        · rfl
      · rfl

theorem lookup_eq_none_of_forall_lt (h : ∀ entry ∈ entries, key < entry.1) :
    entries.lookup key = none := by
  refine lookup_eq_none_of_not_mem fun hmem => ?_
  obtain ⟨entry, hentry, rfl⟩ := List.mem_map.mp hmem
  exact String.lt_irrefl _ (h entry hentry)

/-- Lists in key order are equal if they have the same values under all keys. -/
theorem Sorted.ext (h : Sorted entries) (h' : Sorted entries')
    (hlookup : ∀ key, entries'.lookup key = entries.lookup key) : entries' = entries := by
  induction entries generalizing entries' with
  | nil =>
    cases entries' with
    | nil => rfl
    | cons first' rest' =>
      have hfound := hlookup first'.1
      rw [lookup_cons_eq, if_pos rfl] at hfound
      cases hfound
  | cons first rest ih =>
    cases entries' with
    | nil =>
      have hfound := hlookup first.1
      rw [lookup_cons_eq, if_pos rfl] at hfound
      cases hfound
    | cons first' rest' =>
      have hkey : first'.1 = first.1 := by
        rcases lt_trichotomy first'.1 first.1 with hlt | heq | hgt
        · have hfound := hlookup first'.1
          rw [lookup_eq_none_of_forall_lt (h.forall_lt hlt), lookup_cons_eq, if_pos rfl] at hfound
          cases hfound
        · exact heq
        · have hfound := hlookup first.1
          rw [lookup_eq_none_of_forall_lt (h'.forall_lt hgt), lookup_cons_eq, if_pos rfl] at hfound
          cases hfound
      have hvalue : first'.2 = first.2 := by
        have hfound := hlookup first.1
        rw [lookup_cons_eq, lookup_cons_eq, if_pos hkey.symm, if_pos rfl] at hfound
        exact Option.some.inj hfound
      have hrest : rest' = rest := by
        refine ih (List.Pairwise.of_cons h) (List.Pairwise.of_cons h') fun key => ?_
        by_cases hfirst : key = first.1
        · rw [lookup_eq_none_of_forall_lt, lookup_eq_none_of_forall_lt]
          · exact fun entry hentry => hfirst ▸ List.rel_of_pairwise_cons h hentry
          · exact fun entry hentry => hfirst ▸ hkey ▸ List.rel_of_pairwise_cons h' hentry
        · have hfound := hlookup key
          rwa [lookup_cons_eq, lookup_cons_eq, hkey, if_neg hfirst, if_neg hfirst] at hfound
      exact congrArg₂ List.cons (Prod.ext hkey hvalue) hrest

/-- Of two insertions at one key the later one counts. -/
theorem Sorted.insert_insert (h : Sorted entries) (value value' : α) :
    Keyed.insert key value' (Keyed.insert key value entries) = Keyed.insert key value' entries := by
  refine Sorted.ext (h.insert key value') ((h.insert key value).insert key value') fun other => ?_
  rw [lookup_insert, lookup_insert, lookup_insert]
  split <;> rfl

theorem Sorted.insert_comm {key' : String} (h : Sorted entries) (hkey : key ≠ key')
    (value value' : α) :
    Keyed.insert key value (Keyed.insert key' value' entries) =
      Keyed.insert key' value' (Keyed.insert key value entries) :=
  Sorted.ext ((h.insert key value).insert key' value') ((h.insert key' value').insert key value)
    (lookup_insert_comm hkey value value' entries)

theorem Sorted.foldl_insert (h : Sorted entries) (later : List (String × α)) :
    Sorted (later.foldl (fun found entry => Keyed.insert entry.1 entry.2 found) entries) := by
  induction later generalizing entries with
  | nil => exact h
  | cons entry later ih => exact ih (h.insert entry.1 entry.2)

/-- An entry can be inserted after others with different keys. -/
theorem Sorted.foldl_insert_comm (h : Sorted entries) {later : List (String × α)}
    (hkey : key ∉ later.map (·.1)) (value : α) :
    later.foldl (fun found entry => Keyed.insert entry.1 entry.2 found)
        (Keyed.insert key value entries) =
      Keyed.insert key value
        (later.foldl (fun found entry => Keyed.insert entry.1 entry.2 found) entries) := by
  induction later generalizing entries with
  | nil => rfl
  | cons entry later ih =>
    rw [List.map_cons, List.mem_cons, not_or] at hkey
    rw [List.foldl_cons, List.foldl_cons, h.insert_comm (Ne.symm hkey.1), ih (h.insert _ _) hkey.2]

/-- An entry of a list after which its key does not come again. -/
theorem ofList_append_cons (earlier : List (String × α)) {later : List (String × α)}
    (hkey : key ∉ later.map (·.1)) (value : α) :
    ofList (earlier ++ (key, value) :: later) = insert key value (ofList (earlier ++ later)) := by
  have hsorted : Sorted (ofList earlier) := Sorted.foldl_insert List.Pairwise.nil earlier
  rw [ofList, ofList, List.foldl_append, List.foldl_append, List.foldl_cons]
  exact hsorted.foldl_insert_comm hkey value

end Keyed

/-! ## The known facts of a record -/

/-- Facts are inserted into a set as their members that are not null are inserted into an object. -/
theorem toMembers_foldl_insert {fields : List (String × Option Value)}
    (hnodup : (fields.map (·.1)).Nodup) {set : FactSet} {found : List (String × Json)}
    (hsorted : Keyed.Sorted found) (hnew : ∀ field ∈ fields, field.1 ∉ found.map (·.1))
    (h : set.toMembers = found.filter fun member => !member.2.isNull) :
    (fields.foldl (fun set field => match field.2 with
      | some value => set.insert field.1 value
      | none => set) set).toMembers =
      (fields.foldl (fun found field =>
        Keyed.insert field.1 (FactRecord.stated field.2) found) found).filter
          fun member => !member.2.isNull := by
  induction fields generalizing set found with
  | nil => exact h
  | cons field rest ih =>
    obtain ⟨name, value⟩ := field
    obtain ⟨hnot, hrest⟩ := List.nodup_cons.mp hnodup
    obtain ⟨hname, hnew⟩ := List.forall_mem_cons.mp hnew
    rw [List.foldl_cons, List.foldl_cons]
    refine ih hrest (hsorted.insert _ _) (fun field hfield => ?_) ?_
    · intro hmem
      obtain ⟨member, hmember, hkey⟩ := List.mem_map.mp hmem
      rcases Keyed.of_mem_insert hmember with rfl | hmember
      · exact hnot (List.mem_map.mpr ⟨field, hfield, hkey.symm⟩)
      · exact hnew field hfield (List.mem_map.mpr ⟨member, hmember, hkey⟩)
    -- A fact without a value is null, so neither side takes it in.
    · rw [Keyed.filter_insert hsorted hname]
      cases value with
      | none => exact h
      | some v =>
        have hnull : (FactRecord.stated (some v)).isNull = false := v.isNull_toJson
        rw [hnull, ← h]
        exact Keyed.map_insert Value.toJson name v set.entries

namespace FactRecord

/-- The known facts are the members of the flat object that are not null. -/
theorem toMembers_known (r : FactRecord) :
    r.known.toMembers = r.members.filter fun member => !member.2.isNull := by
  rw [members, Keyed.ofList, List.foldl_map]
  exact toMembers_foldl_insert r.nodup_fields List.Pairwise.nil (fun _ _ => List.not_mem_nil) rfl

end FactRecord

end Verdict
