import Verdict.Proofs.KeyOrder
import Verdict.Proofs.NestedObjects
import Verdict.Proofs.NumberText

/-!
# Places in documents

The text of a document has a place for a value where one member of an object after the other leads
to it. Whatever text of a value is put there, the document is read as the object with this value at
the path to the place.
-/

namespace Verdict.Json.Scan

variable {α : Type} {item : Scan α}

/-- The text of a value, wherever it stands. -/
def IsValue (cs : List Char) (v : Json) : Prop :=
  ∀ depth rest, EndsNumber rest → value depth (cs ++ rest) = some (v, rest)

theorem isValue_quoted {cs : List Char} (hcs : ∀ c ∈ cs, StandsForItself c) :
    IsValue ('"' :: (cs ++ ['"'])) (.string (String.ofList cs)) := by
  intro depth rest _
  rw [List.cons_append, List.append_assoc, List.singleton_append, value_quoted hcs]

/-- After a member comes another one, or the end of the object. -/
def EndsMember (rest : List Char) : Prop :=
  ∃ c after, rest = c :: after ∧ (c = ',' ∨ c = '}')

/-- The text of an item, up to what comes after it. -/
def IsItem (item : Scan α) (cs : List Char) (x : α) : Prop :=
  ∀ rest, EndsMember rest → ∃ left, item (cs ++ rest) = some (x, left) ∧ skipSpace left = rest

/-- Texts of items, each with a comma after it. -/
inductive Before (item : Scan α) : List Char → List α → Prop
  | nil : Before item [] []
  | cons {cs front : List Char} {x : α} {xs : List α} (h : IsItem item cs x)
    (hrest : Before item front xs) : Before item (cs ++ ',' :: front) (x :: xs)

/-- Texts of items, each with a comma before it, and the end of the object. -/
inductive After (item : Scan α) : List Char → List α → Prop
  | nil : After item ['}'] []
  | cons {cs back : List Char} {x : α} {xs : List α} (h : IsItem item cs x)
    (hrest : After item back xs) : After item (',' :: (cs ++ back)) (x :: xs)

theorem After.endsMember {back : List Char} {xs : List α} (h : After item back xs)
    (rest : List Char) : EndsMember (back ++ rest) := by
  cases h with
  | nil => exact ⟨'}', rest, rfl, .inr rfl⟩
  | cons => exact ⟨',', _, rfl, .inl rfl⟩

theorem After.length_lt {back : List Char} {xs : List α} (h : After item back xs) :
    xs.length < back.length := by
  induction h with
  | nil => exact Nat.one_pos
  | cons _ _ ih =>
    rw [List.length_cons, List.length_cons, List.length_append]
    omega

theorem Before.length_le {front : List Char} {xs : List α} (h : Before item front xs) :
    xs.length ≤ front.length := by
  induction h with
  | nil => exact Nat.le_refl 0
  | cons _ _ ih =>
    rw [List.length_cons, List.length_append, List.length_cons]
    omega

/-- Items before a place are read one after the other. -/
theorem itemsRest_before {front : List Char} {xs : List α} (h : Before item front xs) (count : ℕ)
    (read : List α) (rest : List Char) :
    itemsRest item '}' (count + xs.length) read (front ++ rest) =
      itemsRest item '}' count (xs.reverse ++ read) rest := by
  induction h generalizing read with
  | nil => rfl
  | @cons cs front x xs h _ ih =>
    obtain ⟨left, hitem, hleft⟩ := h (',' :: (front ++ rest)) ⟨',', _, rfl, .inl rfl⟩
    rw [List.append_assoc, List.cons_append, List.length_cons, ← Nat.add_assoc, itemsRest, hitem]
    simp only [Option.bind_eq_bind, Option.bind_some, hleft, Char.reduceEq, if_false, if_true]
    rw [ih, List.reverse_cons, List.append_assoc, List.singleton_append]

/-- An item and those after it are read up to the end of the object. -/
theorem itemsRest_after {back : List Char} {xs : List α} (h : After item back xs) {count : ℕ}
    (hcount : xs.length < count) (read : List α) {cs : List Char} {x : α} (hx : IsItem item cs x)
    (rest : List Char) :
    itemsRest item '}' count read (cs ++ (back ++ rest)) =
      some (read.reverse ++ x :: xs, rest) := by
  obtain ⟨count, rfl⟩ : ∃ n, count = n + 1 := Nat.exists_eq_add_of_le' (by omega)
  induction h generalizing count read cs x with
  | nil =>
    obtain ⟨left, hitem, hleft⟩ := hx ('}' :: rest) ⟨'}', rest, rfl, .inr rfl⟩
    rw [List.singleton_append, itemsRest, hitem]
    simp only [Option.bind_eq_bind, Option.bind_some, hleft, if_true, List.reverse_cons]
  | @cons cs' back x' xs h _ ih =>
    obtain ⟨left, hitem, hleft⟩ := hx (',' :: (cs' ++ (back ++ rest))) ⟨',', _, rfl, .inl rfl⟩
    obtain ⟨count, rfl⟩ : ∃ n, count = n + 1 :=
      Nat.exists_eq_add_of_le' (by rw [List.length_cons] at hcount; omega)
    rw [List.cons_append, List.append_assoc, itemsRest, hitem]
    simp only [Option.bind_eq_bind, Option.bind_some, hleft, Char.reduceEq, if_false, if_true]
    rw [ih (x :: read) h count (by rw [List.length_cons] at hcount; omega), List.reverse_cons,
      List.append_assoc, List.singleton_append]

/-! ## White space -/

theorem skipSpace_append {space : List Char} (h : ∀ c ∈ space, isSpace c = true) (cs : List Char) :
    skipSpace (space ++ cs) = skipSpace cs :=
  List.dropWhile_append_of_pos h

theorem value_append_space {space : List Char} (h : ∀ c ∈ space, isSpace c = true) (depth : ℕ)
    (cs : List Char) : value depth (space ++ cs) = value depth cs := by
  unfold value
  rw [skipSpace_append h]

theorem skipSpace_of_endsMember {rest : List Char} (h : rest = [] ∨ EndsMember rest) :
    skipSpace rest = rest := by
  rcases h with rfl | ⟨c, after, rfl, rfl | rfl⟩ <;> rfl

theorem endsNumber_of_endsMember {space : List Char} (hspace : ∀ c ∈ space, isSpace c = true)
    {rest : List Char} (h : rest = [] ∨ EndsMember rest) : EndsNumber (space ++ rest) := by
  cases space with
  | nil =>
    rcases h with rfl | ⟨c, after, rfl, rfl | rfl⟩
    · exact nofun
    · rintro _ ⟨⟩
      decide
    · rintro _ ⟨⟩
      decide
  | cons c space =>
    rintro _ ⟨⟩
    have hc := hspace c List.mem_cons_self
    simp only [isSpace, Bool.or_eq_true, decide_eq_true_eq] at hc
    rcases hc with ((rfl | rfl) | rfl) | rfl <;> decide

/-! ## Places -/

/-- The text of a key up to the colon after it. -/
def IsKey (cs : List Char) (key : String) : Prop :=
  ∀ (read : Scan Json) rest, member read (cs ++ rest) = (read rest).map fun r => ((key, r.1), r.2)

/-- The text before and after a place for a value, the path to the place, and the value of the
document with some value there. -/
inductive Place : (depth : ℕ) → (before after : List Char) → List String → Json → Prop
  | here {depth : ℕ} {space space' : List Char} (h : ∀ c ∈ space, isSpace c = true)
    (h' : ∀ c ∈ space', isSpace c = true) (v : Json) : Place depth space space' [] v
  | inside {depth : ℕ} {before after front back cs space space' : List Char} {path : List String}
    {v : Json} {earlier later : List (String × Json)} {key : String}
    (h : Place depth before after path v) (hspace : ∀ c ∈ space, isSpace c = true)
    (hspace' : ∀ c ∈ space', isSpace c = true)
    (hfront : Before (member (value depth)) front earlier) (hkey : IsKey cs key)
    (hback : After (member (value depth)) back later)
    (hlast : key ∉ later.map (·.1)) :
    Place (depth + 1) (space ++ '\x7b' :: (front ++ (cs ++ before))) (after ++ (back ++ space'))
      (key :: path) (ofMembers (earlier ++ (key, v) :: later))

theorem isKey_plain {key : String} (h : ∀ c ∈ key.toList, StandsForItself c)
    {space space' : List Char} (hspace : ∀ c ∈ space, isSpace c = true)
    (hspace' : ∀ c ∈ space', isSpace c = true) :
    IsKey (space ++ '"' :: (key.toList ++ '"' :: (space' ++ [':']))) key := by
  intro read rest
  have htext : space ++ '"' :: (key.toList ++ '"' :: (space' ++ [':'])) ++ rest =
      space ++ '"' :: (key.toList ++ '"' :: (space' ++ ':' :: rest)) := by
    simp only [List.append_assoc, List.cons_append, List.nil_append]
  have hquote : ∀ cs, skipSpace ('"' :: cs) = '"' :: cs := fun _ => rfl
  have hcolon : ∀ cs, skipSpace (':' :: cs) = ':' :: cs := fun _ => rfl
  have hstring : string (key.toList ++ '"' :: (space' ++ ':' :: rest)) =
      some (key, space' ++ ':' :: rest) := by
    rw [string, stringRest_append h _ (by simp) [], List.reverse_nil, List.nil_append,
      String.ofList_toList]
  rw [htext]
  unfold member
  rw [skipSpace_append hspace, hquote]
  simp only [Option.bind_eq_bind, hstring, Option.bind_some, skipSpace_append hspace', hcolon]
  cases read rest <;> rfl

theorem isItem_member {cs text : List Char} {key : String} {v : Json} (hkey : IsKey cs key)
    (hvalue : IsValue text v) (depth : ℕ) :
    IsItem (member (value depth)) (cs ++ text) (key, v) := by
  intro rest hrest
  have hnone : ∀ c ∈ ([] : List Char), isSpace c = true := nofun
  have hends : EndsNumber rest := endsNumber_of_endsMember hnone (.inr hrest)
  refine ⟨rest, ?_, skipSpace_of_endsMember (.inr hrest)⟩
  rw [List.append_assoc, hkey, hvalue depth rest hends]
  rfl

theorem member_cases {read : Scan Json} {cs : List Char} {x : (String × Json) × List Char}
    (h : member read cs = some x) : ∃ rest, skipSpace cs = '"' :: rest := by
  unfold member at h
  split at h
  · exact ⟨_, ‹_›⟩
  · cases h

/-- An object with one member or more is read as the list of its members. -/
theorem value_object {depth : ℕ} {cs : List Char} {x : (String × Json) × List Char}
    (h : member (value depth) cs = some x) :
    value (depth + 1) ('\x7b' :: cs) =
      (itemsRest (member (value depth)) '}' cs.length [] cs).map fun r => (ofMembers r.1, r.2) := by
  obtain ⟨rest, hrest⟩ := member_cases h
  have hitems : items (member (value depth)) '}' cs =
      itemsRest (member (value depth)) '}' cs.length [] cs := by
    rw [items, hrest]
    exact if_neg (by decide)
  rw [← hitems]
  unfold value
  rfl

theorem insertAt_ofMembers {earlier later : List (String × Json)} {key : String}
    (hlast : key ∉ later.map (·.1)) (w v : Json) (path : List String) :
    insertAt w (key :: path) (ofMembers (earlier ++ (key, v) :: later)) =
      ofMembers (earlier ++ (key, insertAt w path v) :: later) := by
  have hsorted : Keyed.Sorted (Keyed.ofList (earlier ++ later)) :=
    Keyed.Sorted.foldl_insert List.Pairwise.nil _
  rw [insertAt, ofMembers, ofMembers, members, Keyed.ofList_append_cons earlier hlast,
    Keyed.ofList_append_cons earlier hlast, Keyed.lookup_insert_self, Option.getD_some,
    hsorted.insert_insert]

/-- A value at a place is read as one at the end of the path to it. -/
theorem Place.value_eq {depth : ℕ} {before after : List Char} {path : List String} {v : Json}
    (h : Place depth before after path v) {cs : List Char} {w : Json} (hvalue : IsValue cs w)
    {rest : List Char} (hrest : rest = [] ∨ EndsMember rest) :
    ∃ left, value depth (before ++ (cs ++ (after ++ rest))) = some (insertAt w path v, left) ∧
      skipSpace left = rest := by
  induction h generalizing rest with
  | @here depth space space' h h' v =>
    refine ⟨space' ++ rest, ?_, ?_⟩
    · rw [value_append_space h, hvalue depth _ (endsNumber_of_endsMember h' hrest)]
      rfl
    · rw [skipSpace_append h', skipSpace_of_endsMember hrest]
  | @inside depth before after front back cs' space space' path v earlier later key h hspace hspace'
      hfront hkey hback hlast ih =>
    -- the member that leads to the place is read like those beside it
    have hitem : IsItem (member (value depth)) (cs' ++ (before ++ (cs ++ after)))
        (key, insertAt w path v) := by
      intro rest hrest
      obtain ⟨left, hread, hleft⟩ := ih (.inr hrest)
      refine ⟨left, ?_, hleft⟩
      simp only [List.append_assoc]
      rw [hkey, hread]
      rfl
    -- the first member shows that the object is not empty
    obtain ⟨x, hx⟩ : ∃ x, member (value depth) (front ++ (cs' ++ (before ++ (cs ++ after)) ++
        (back ++ (space' ++ rest)))) = some x := by
      cases hfront with
      | nil =>
        obtain ⟨left, hread, -⟩ := hitem _ (hback.endsMember (space' ++ rest))
        exact ⟨_, hread⟩
      | @cons first others _ _ hfirst _ =>
        obtain ⟨left, hread, -⟩ := hfirst (',' :: (others ++ _)) ⟨',', _, rfl, .inl rfl⟩
        rw [List.append_assoc]
        exact ⟨_, hread⟩
    have hcount : ∃ count, (front ++ (cs' ++ (before ++ (cs ++ after)) ++
        (back ++ (space' ++ rest)))).length = count + earlier.length ∧ later.length < count := by
      have hlong := hfront.length_le
      have hlong' := hback.length_lt
      refine ⟨_, (Nat.sub_add_cancel ?_).symm, ?_⟩ <;> simp only [List.length_append] <;> omega
    obtain ⟨count, hlength, hcount⟩ := hcount
    refine ⟨space' ++ rest, ?_, by rw [skipSpace_append hspace', skipSpace_of_endsMember hrest]⟩
    have htext : space ++ '\x7b' :: (front ++ (cs' ++ before)) ++
        (cs ++ (after ++ (back ++ space') ++ rest)) = space ++ '\x7b' ::
          (front ++ (cs' ++ (before ++ (cs ++ after)) ++ (back ++ (space' ++ rest)))) := by
      simp only [List.append_assoc, List.cons_append]
    rw [htext, value_append_space hspace, value_object hx, hlength, itemsRest_before hfront,
      itemsRest_after hback hcount _ hitem, insertAt_ofMembers hlast]
    simp

/-- A document is read with the value at the place. -/
theorem Place.parse?_eq {before after : List Char} {path : List String} {v : Json}
    (h : Place nestingLimit before after path v) {cs : List Char} {w : Json}
    (hvalue : IsValue cs w) :
    parse? (String.ofList (before ++ (cs ++ after))) = some (insertAt w path v) := by
  obtain ⟨left, hread, hleft⟩ := h.value_eq hvalue (.inl rfl)
  rw [List.append_nil] at hread
  rw [parse?, parseWithin?, String.toList_ofList, hread]
  simp [hleft]

end Verdict.Json.Scan
