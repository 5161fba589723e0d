/-!
# Entries in key order

Lists of entries that are kept in the order of their keys, one entry a key. They are read with the
look-up of lists. An insertion is seen at its own key and at no other, whatever the list.
-/

namespace Verdict.Keyed

universe u

variable {α : Type u}

/-- Puts an entry in its place and takes away an earlier one with the same key. -/
def insert (key : String) (value : α) : List (String × α) → List (String × α)
  | [] => [(key, value)]
  | entry :: rest =>
    if key = entry.1 then (key, value) :: rest
    else if key < entry.1 then (key, value) :: entry :: rest
    else entry :: insert key value rest

/-- The entries of a list in key order; of two entries with the same key the later one counts. -/
def ofList (entries : List (String × α)) : List (String × α) :=
  entries.foldl (fun found entry => insert entry.1 entry.2 found) []

theorem lookup_cons_eq (key other : String) (value : α) (rest : List (String × α)) :
    List.lookup other ((key, value) :: rest) =
      if other = key then some value else rest.lookup other := by
  by_cases h : other = key
  · simp [h]
  · have : (other == key) = false := by simpa using h
    simp [List.lookup_cons, this, h]

theorem lookup_insert (key other : String) (value : α) (entries : List (String × α)) :
    (insert key value entries).lookup other =
      if other = key then some value else entries.lookup other := by
  induction entries with
  | nil => simp [insert, lookup_cons_eq]
  | cons entry rest ih =>
    obtain ⟨k, v⟩ := entry
    by_cases hk : key = k
    · subst hk
      by_cases h : other = key <;> simp [insert, lookup_cons_eq, h]
    · by_cases hlt : key < k
      · simp [insert, hk, hlt, lookup_cons_eq]
      · by_cases h : other = k
        · subst h
          simp [insert, hk, hlt, Ne.symm hk]
        · simp [insert, hk, hlt, lookup_cons_eq, h, ih]

@[simp] theorem lookup_insert_self (key : String) (value : α) (entries : List (String × α)) :
    (insert key value entries).lookup key = some value := by
  simp [lookup_insert]

end Verdict.Keyed
