/-!
# Names in the order of first occurrence
-/

namespace Verdict.Names

/-- Puts a name at the end, unless it is there already. -/
def record (names : List String) (name : String) : List String :=
  if name ∈ names then names else names ++ [name]

/-- The names of a list, each where it occurs first. -/
def distinct (names : List String) : List String :=
  names.foldl record []

@[simp] theorem distinct_nil : distinct [] = [] := rfl

theorem mem_record (names : List String) (name other : String) :
    other ∈ record names name ↔ other ∈ names ∨ other = name := by
  unfold record
  split
  · constructor
    · exact Or.inl
    · rintro (h | rfl)
      · exact h
      · assumption
  · simp

theorem nodup_record {names : List String} (h : names.Nodup) (name : String) :
    (record names name).Nodup := by
  unfold record
  split
  · exact h
  · rename_i hn
    refine List.nodup_append.2 ⟨h, by simp, fun a ha b hb => ?_⟩
    rintro rfl
    exact hn (by simpa using List.mem_singleton.1 hb ▸ ha)

theorem mem_foldl_record (names start : List String) (name : String) :
    name ∈ names.foldl record start ↔ name ∈ start ∨ name ∈ names := by
  induction names generalizing start with
  | nil => simp
  | cons first rest ih => simp [ih, mem_record, or_assoc]

theorem nodup_foldl_record (names : List String) {start : List String} (h : start.Nodup) :
    (names.foldl record start).Nodup := by
  induction names generalizing start with
  | nil => exact h
  | cons first rest ih => exact ih (nodup_record h first)

/-- No name is lost and none is added. -/
@[simp] theorem mem_distinct {names : List String} {name : String} :
    name ∈ distinct names ↔ name ∈ names := by
  simp [distinct, mem_foldl_record]

/-- No name occurs twice. -/
theorem nodup_distinct (names : List String) : (distinct names).Nodup :=
  nodup_foldl_record names List.nodup_nil

end Verdict.Names
