import Verdict.Json.Basic

/-!
# Nested objects

A value can be put at a path, with the objects that lead there. It is then found at its path, and
nothing else has changed but on the way. So the object that is built from values at paths of which
none leads to another holds these values and nothing else.
-/

namespace Verdict.Json

/-- The members of an object. No other value has any. -/
def members : Json → List (String × Json)
  | object members => members
  | _ => []

/-- Puts a value at a path. What is no object on the way there gives way to one. -/
def insertAt (value : Json) : List String → Json → Json
  | [], _ => value
  | key :: path, v =>
    object (Keyed.insert key (insertAt value path ((v.members.lookup key).getD (object []))) v.members)

/-- The object that is built from values at paths. -/
def ofPaths (entries : List (List String × Json)) : Json :=
  entries.foldr (fun entry v => insertAt entry.2 entry.1 v) (object [])

/-- Neither path leads to the other. -/
def Parts (path path' : List String) : Prop :=
  ¬path <+: path' ∧ ¬path' <+: path

theorem at?_object_cons (members : List (String × Json)) (key : String) (path : List String) :
    (object members).at? (key :: path) = (members.lookup key).bind (at? path) := rfl

theorem at?_cons (v : Json) (key : String) (path : List String) :
    v.at? (key :: path) = (v.members.lookup key).bind (at? path) := by
  cases v <;> rfl

theorem at?_eq_none {v : Json} (h : v.isObject = false) {path : List String} (hpath : path ≠ []) :
    v.at? path = none := by
  cases path with
  | nil => exact absurd rfl hpath
  | cons key path => cases v <;> first | rfl | cases h

theorem Parts.symm {path path' : List String} (h : Parts path path') : Parts path' path :=
  ⟨h.2, h.1⟩

theorem Parts.append {path path' : List String} (h : Parts path path') (rest : List String) :
    Parts path (path' ++ rest) := by
  constructor
  · intro hprefix
    rcases List.prefix_or_prefix_of_prefix hprefix (List.prefix_append path' rest) with h' | h'
    · exact h.1 h'
    · exact h.2 h'
  · exact fun hprefix => h.2 ((List.prefix_append path' rest).trans hprefix)

/-! ## Putting one value in -/

theorem at?_insertAt_append (value : Json) (path rest : List String) (v : Json) :
    (insertAt value path v).at? (path ++ rest) = value.at? rest := by
  induction path generalizing v with
  | nil => rfl
  | cons key path ih =>
    rw [List.cons_append, insertAt, at?_object_cons, Keyed.lookup_insert_self, Option.bind_some, ih]

theorem at?_insertAt_of_parts {path path' : List String} (h : Parts path path') (value v : Json) :
    (insertAt value path v).at? path' = v.at? path' := by
  induction path generalizing path' v with
  | nil => exact absurd (List.nil_prefix) h.1
  | cons key path ih =>
    cases path' with
    | nil => exact absurd (List.nil_prefix) h.2
    | cons key' path' =>
      rw [insertAt, at?_object_cons, at?_cons v, Keyed.lookup_insert]
      by_cases hkey : key' = key
      · subst hkey
        have hparts : Parts path path' := by simpa [Parts] using h
        have hpath' : path' ≠ [] := by
          rintro rfl
          exact hparts.2 List.nil_prefix
        rw [if_pos rfl, Option.bind_some, ih hparts]
        cases v.members.lookup key' with
        | none =>
          obtain ⟨first, rest, rfl⟩ := List.exists_cons_of_ne_nil hpath'
          rfl
        | some inner => rfl
      · rw [if_neg hkey]

theorem exists_object_insertAt (value : Json) (path : List String) {rest : List String}
    (hrest : rest ≠ []) (v : Json) :
    ∃ inner, (insertAt value (path ++ rest) v).at? path = some (object inner) := by
  induction path generalizing v with
  | nil =>
    obtain ⟨key, rest, rfl⟩ := List.exists_cons_of_ne_nil hrest
    exact ⟨_, rfl⟩
  | cons key path ih =>
    rw [List.cons_append, insertAt, at?_object_cons, Keyed.lookup_insert_self, Option.bind_some]
    exact ih _

theorem isObject_insertAt (value : Json) {path : List String} (hpath : path ≠ []) (v : Json) :
    (insertAt value path v).isObject = true := by
  obtain ⟨key, path, rfl⟩ := List.exists_cons_of_ne_nil hpath
  rfl

theorem isObject_ofPaths {entries : List (List String × Json)}
    (h : ∀ entry ∈ entries, entry.1 ≠ []) : (ofPaths entries).isObject = true := by
  cases entries with
  | nil => rfl
  | cons entry rest => exact isObject_insertAt entry.2 (h entry List.mem_cons_self) _

/-! ## Objects of values at paths -/

/-- The value has the entries at their paths. All else is an object that leads to one of them. -/
structure Holds (entries : List (List String × Json)) (v : Json) : Prop where
  stated : ∀ entry ∈ entries, ∀ rest, v.at? (entry.1 ++ rest) = entry.2.at? rest
  onTheWay : ∀ path found, path ≠ [] → v.at? path = some found →
    (∃ entry ∈ entries, entry.1 <+: path) ∨
      (∃ inner, found = object inner) ∧ ∃ entry ∈ entries, path <+: entry.1

theorem holds_nil : Holds [] (object []) where
  stated := by simp
  onTheWay := by
    intro path found hpath hfound
    obtain ⟨key, path, rfl⟩ := List.exists_cons_of_ne_nil hpath
    cases hfound

theorem Holds.insertAt {entries : List (List String × Json)} {v : Json} (h : Holds entries v)
    {path : List String} (hpath : ∀ entry ∈ entries, Parts path entry.1) (value : Json) :
    Holds ((path, value) :: entries) (insertAt value path v) where
  stated := by
    intro entry hentry rest
    rcases List.mem_cons.mp hentry with rfl | hentry
    · exact at?_insertAt_append value path rest v
    · rw [at?_insertAt_of_parts ((hpath entry hentry).append rest), h.stated entry hentry]
  onTheWay := by
    intro path' found hne hfound
    by_cases hinside : path <+: path'
    · exact Or.inl ⟨_, List.mem_cons_self, hinside⟩
    · by_cases hleads : path' <+: path
      · obtain ⟨rest, rfl⟩ := hleads
        have hrest : rest ≠ [] := by
          rintro rfl
          exact hinside (by simp)
        obtain ⟨inner, hinner⟩ := exists_object_insertAt value path' hrest v
        rw [hinner, Option.some.injEq] at hfound
        exact Or.inr ⟨⟨inner, hfound.symm⟩, _, List.mem_cons_self, List.prefix_append path' rest⟩
      · rw [at?_insertAt_of_parts ⟨hinside, hleads⟩] at hfound
        rcases h.onTheWay path' found hne hfound with ⟨entry, hentry, h⟩ | ⟨h, entry, hentry, h'⟩
        · exact Or.inl ⟨entry, List.mem_cons_of_mem _ hentry, h⟩
        · exact Or.inr ⟨h, entry, List.mem_cons_of_mem _ hentry, h'⟩

theorem holds_ofPaths {entries : List (List String × Json)}
    (h : entries.Pairwise fun entry entry' => Parts entry.1 entry'.1) :
    Holds entries (ofPaths entries) := by
  induction entries with
  | nil => exact holds_nil
  | cons entry rest ih =>
    obtain ⟨hentry, hrest⟩ := List.pairwise_cons.mp h
    exact (ih hrest).insertAt hentry entry.2

end Verdict.Json
