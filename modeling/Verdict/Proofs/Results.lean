/-!
# Results of computations that can fail

A computation of several parts has a result exactly if each of its parts has one.
-/

namespace Verdict

variable {α β ε : Type}

/-- A computation that goes on has a result only if its first part has one. -/
theorem exists_of_bind_eq_ok {first : Except ε α} {next : α → Except ε β} {b : β}
    (h : first >>= next = .ok b) : ∃ a, first = .ok a ∧ next a = .ok b := by
  cases first with
  | ok a => exact ⟨a, rfl, h⟩
  | error e => cases h

theorem bind_ok (a : α) (next : α → Except ε β) : (.ok a >>= next) = next a := rfl

theorem mapError_ok {ε' : Type} (f : ε → ε') (a : α) :
    (.ok a : Except ε α).mapError f = .ok a := rfl

theorem mapError_eq_ok_iff {ε' : Type} {f : ε → ε'} {x : Except ε α} {a : α} :
    x.mapError f = .ok a ↔ x = .ok a := by
  cases x with
  | ok b => rw [mapError_ok, Except.ok.injEq, Except.ok.injEq]
  | error e => exact iff_of_false (by rintro ⟨⟩) (by rintro ⟨⟩)

theorem map_eq_error_iff {f : α → β} {x : Except ε α} {e : ε} :
    f <$> x = .error e ↔ x = .error e := by
  cases x <;> simp [Functor.map, Except.map]

/-- The error of a computation that has no result. -/
def errorOf? : Except ε α → Option ε
  | .ok _ => none
  | .error e => some e

theorem errorOf?_eq_some_iff {x : Except ε α} {e : ε} : errorOf? x = some e ↔ x = .error e := by
  cases x <;> simp [errorOf?]

/-- If what follows fails alike for every result of the first part, the first error counts. -/
theorem errorOf?_bind {first : Except ε α} {next : α → Except ε β} {later : Option ε}
    (h : ∀ a, errorOf? (next a) = later) :
    errorOf? (first >>= next) = (errorOf? first).or later := by
  cases first with
  | ok a => exact h a
  | error e => rfl

theorem errorOf?_bind_pure (x : Except ε α) (f : α → β) :
    errorOf? (x >>= fun a => pure (f a)) = errorOf? x := by
  cases x <;> rfl

/-- The computations fail with one error, or their results are related. -/
inductive Alike (R : α → β → Prop) : Except ε α → Except ε β → Prop
  | ok {a : α} {b : β} (h : R a b) : Alike R (.ok a) (.ok b)
  | error (e : ε) : Alike R (.error e) (.error e)

theorem Alike.of_eq {R : α → α → Prop} (hrefl : ∀ a, R a a) {x y : Except ε α} (h : y = x) :
    Alike R x y := by
  subst h
  cases y with
  | ok a => exact .ok (hrefl a)
  | error e => exact .error e

theorem Alike.bind {α' β' : Type} {R : α → α' → Prop} {S : β → β' → Prop} {x : Except ε α}
    {x' : Except ε α'} {next : α → Except ε β} {next' : α' → Except ε β'} (h : Alike R x x')
    (hnext : ∀ a a', R a a' → Alike S (next a) (next' a')) :
    Alike S (x >>= next) (x' >>= next') := by
  cases h with
  | ok h => exact hnext _ _ h
  | error e => exact .error e

/-- A list fails with the error of the first element that fails. -/
theorem errorOf?_mapM (f : α → Except ε β) (xs : List α) :
    errorOf? (xs.mapM f) = xs.findSome? fun x => errorOf? (f x) := by
  induction xs with
  | nil => rfl
  | cons x rest ih =>
    have hrest : ∀ y, errorOf? (rest.mapM f >>= fun ys => pure (y :: ys)) =
        rest.findSome? fun x => errorOf? (f x) := by
      intro y
      rw [errorOf?_bind_pure, ih]
    rw [List.mapM_cons, errorOf?_bind hrest, List.findSome?_cons]
    cases errorOf? (f x) <;> rfl

theorem exists_mapM_eq_ok {f : α → Except ε β} {xs : List α} (h : ∀ x ∈ xs, ∃ y, f x = .ok y) :
    ∃ ys, xs.mapM f = .ok ys := by
  induction xs with
  | nil => exact ⟨[], rfl⟩
  | cons x xs ih =>
    obtain ⟨y, hy⟩ := h x List.mem_cons_self
    obtain ⟨ys, hys⟩ := ih fun x' hx' => h x' (List.mem_cons_of_mem x hx')
    refine ⟨y :: ys, ?_⟩
    rw [List.mapM_cons, hy, hys]
    rfl

theorem exists_of_mapM_eq_ok {f : α → Except ε β} {xs : List α} {ys : List β}
    (h : xs.mapM f = .ok ys) {x : α} (hx : x ∈ xs) : ∃ y ∈ ys, f x = .ok y := by
  induction xs generalizing ys with
  | nil => exact absurd hx List.not_mem_nil
  | cons x' rest ih =>
    rw [List.mapM_cons] at h
    obtain ⟨y, hy, h⟩ := exists_of_bind_eq_ok h
    obtain ⟨rest', hrest, h⟩ := exists_of_bind_eq_ok h
    cases h
    rcases List.mem_cons.mp hx with rfl | hx
    · exact ⟨y, List.mem_cons_self, hy⟩
    · obtain ⟨z, hz, hfz⟩ := ih hrest hx
      exact ⟨z, List.mem_cons_of_mem y hz, hfz⟩

/-- The results of a list are the results of its elements. -/
theorem exists_of_mem_mapM {f : α → Except ε β} {xs : List α} {ys : List β}
    (h : xs.mapM f = .ok ys) {y : β} (hy : y ∈ ys) : ∃ x ∈ xs, f x = .ok y := by
  induction xs generalizing ys with
  | nil =>
    cases h
    exact absurd hy List.not_mem_nil
  | cons x rest ih =>
    rw [List.mapM_cons] at h
    obtain ⟨z, hz, h⟩ := exists_of_bind_eq_ok h
    obtain ⟨zs, hrest, h⟩ := exists_of_bind_eq_ok h
    cases h
    rcases List.mem_cons.mp hy with rfl | hy
    · exact ⟨x, List.mem_cons_self, hz⟩
    · obtain ⟨x', hx', hfx'⟩ := ih hrest hy
      exact ⟨x', List.mem_cons_of_mem x hx', hfx'⟩

end Verdict
