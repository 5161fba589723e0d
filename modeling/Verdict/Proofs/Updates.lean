import Verdict.Proofs.SingleFact

/-!
# Runs of updates

A run of updates replaces one fact after the other; an update that fails leaves the record as it
is. What a run accepts decides what comes of it: the record is the one that is assembled from the
flat object of the first record with the last accepted value of each fact in it, but for the signs
of zeros. Such a sign is lost when the next update prints the record and reads it again.
-/

namespace Verdict

/-- A fact with the value that it is to have. -/
structure Update where
  field : String
  value : Json

namespace Update

/-- The value that is written last to a fact. -/
def lastWrite? (log : List Update) (field : String) : Option Json :=
  (log.reverse.find? (·.field == field)).map (·.value)

/-- The members with the last written values in place of their own. -/
def overwrite (members : List (String × Json)) (log : List Update) : List (String × Json) :=
  members.map fun member => (member.1, (lastWrite? log member.1).getD member.2)

theorem lastWrite?_singleton (u : Update) (field : String) :
    lastWrite? [u] field = if field = u.field then some u.value else none := by
  by_cases h : field = u.field
  · simp [lastWrite?, h]
  · have hne : (u.field == field) = false := by simpa using fun h' => h h'.symm
    simp [lastWrite?, h, hne]

theorem lastWrite?_append (log log' : List Update) (field : String) :
    lastWrite? (log ++ log') field = (lastWrite? log' field).or (lastWrite? log field) := by
  simp only [lastWrite?, List.reverse_append, List.find?_append]
  cases log'.reverse.find? (·.field == field) <;> rfl

theorem lastWrite?_filter_singleton {u : Update} {field : String} (h : field ≠ u.field)
    (p : Update → Bool) : lastWrite? ([u].filter p) field = none := by
  rw [List.filter_singleton]
  cases p u
  · rfl
  · exact (lastWrite?_singleton u field).trans (if_neg h)

theorem lastWrite?_swap {u v : Update} (h : u.field ≠ v.field) (p : Update → Bool)
    (field : String) :
    lastWrite? ([u, v].filter p) field = lastWrite? ([v, u].filter p) field := by
  have happend : ∀ a b : Update, lastWrite? ([a, b].filter p) field =
      (lastWrite? ([b].filter p) field).or (lastWrite? ([a].filter p) field) := by
    intro a b
    rw [← lastWrite?_append, ← List.filter_append, List.singleton_append]
  rw [happend, happend]
  by_cases hu : field = u.field
  · rw [lastWrite?_filter_singleton (hu ▸ h), Option.none_or, Option.or_none]
  · rw [lastWrite?_filter_singleton hu, Option.none_or, Option.or_none]

theorem lastWrite?_hides {u v : Update} (h : u.field = v.field) {p : Update → Bool}
    (hv : p v = true) (log : List Update) (field : String) :
    lastWrite? (([u] ++ log ++ [v]).filter p) field =
      lastWrite? ((log ++ [v]).filter p) field := by
  have hlast : [v].filter p = [v] := by simp [hv]
  simp only [List.filter_append, lastWrite?_append, hlast, lastWrite?_singleton]
  by_cases hfield : field = v.field
  · rw [if_pos hfield, Option.some_or, Option.some_or]
  · rw [lastWrite?_filter_singleton (h ▸ hfield), Option.or_none]

theorem lookup_overwrite (members : List (String × Json)) (log : List Update) (key : String) :
    (overwrite members log).lookup key = (members.lookup key).map (lastWrite? log key).getD :=
  Keyed.lookup_map_entry (fun key value => (lastWrite? log key).getD value) members key

theorem overwrite_nil (members : List (String × Json)) : overwrite members [] = members :=
  List.map_id members

/-- One more write to a member is seen at that member only. -/
theorem lookup_overwrite_concat {members : List (String × Json)} {log : List Update} {u : Update}
    (h : (members.lookup u.field).isSome) (key : String) :
    (overwrite members (log ++ [u])).lookup key =
      (Keyed.insert u.field u.value (overwrite members log)).lookup key := by
  rw [Keyed.lookup_insert, lookup_overwrite, lookup_overwrite, lastWrite?_append,
    lastWrite?_singleton]
  by_cases hkey : key = u.field
  · obtain ⟨value, hvalue⟩ := Option.isSome_iff_exists.mp h
    rw [if_pos hkey, if_pos hkey, hkey, hvalue, Option.map_some, Option.some_or, Option.getD_some]
  · rw [if_neg hkey, if_neg hkey, Option.none_or]

end Update

/-- The records of the domain accept the update: its fact is declared, and its value can be read. -/
def Domain.accepts (domain : Domain) (u : Update) : Bool :=
  domain.policy.declares u.field &&
    (FactRecord.assemble domain (.object [(u.field, u.value)])).toBool

namespace FactRecord

/-- The record after an update. A failed update changes nothing. -/
def update (r : FactRecord) (u : Update) : FactRecord :=
  match r.withFact u.field u.value with
  | .ok s => s
  | .error _ => r

def updateAll (r : FactRecord) (updates : List Update) : FactRecord :=
  updates.foldl update r

/-- The updates of a run that do not fail. -/
def accepted (r : FactRecord) : List Update → List Update
  | [] => []
  | u :: rest =>
    match r.withFact u.field u.value with
    | .ok s => u :: s.accepted rest
    | .error _ => r.accepted rest

/-- The record is reached from the first one by updates, of which none fails. -/
inductive Reaches (r : FactRecord) : List Update → FactRecord → Prop
  | start : Reaches r [] r
  | step {log : List Update} {s t : FactRecord} {u : Update} (h : Reaches r log s)
      (hu : s.withFact u.field u.value = .ok t) : Reaches r (log ++ [u]) t

theorem Reaches.updateAll {r s : FactRecord} {log : List Update} (h : r.Reaches log s)
    (updates : List Update) : r.Reaches (log ++ s.accepted updates) (s.updateAll updates) := by
  induction updates generalizing log s with
  | nil => simpa [accepted, FactRecord.updateAll] using h
  | cons u rest ih =>
    cases hu : s.withFact u.field u.value with
    | ok t =>
      have ht := ih (h.step hu)
      rw [List.append_assoc, List.singleton_append] at ht
      simpa [accepted, FactRecord.updateAll, update, hu] using ht
    | error e => simpa [accepted, FactRecord.updateAll, update, hu] using ih h

theorem reaches_updateAll (r : FactRecord) (updates : List Update) :
    r.Reaches (r.accepted updates) (r.updateAll updates) := by
  simpa using Reaches.start.updateAll updates

/-! ## One step -/

theorem names_eq_of_domain {r s : FactRecord} (h : s.domain = r.domain) :
    s.fields.map (·.1) = r.fields.map (·.1) := by
  rw [← facts_policy, ← facts_policy, h]

theorem domain_of_withFact {r s : FactRecord} {fact : String} {value : Json}
    (h : r.withFact fact value = .ok s) : s.domain = r.domain := by
  rw [withFact] at h
  split at h
  · exact (reassembled_of_assemble h).1
  · cases h

theorem declares_of_withFact {r s : FactRecord} {fact : String} {value : Json}
    (h : r.withFact fact value = .ok s) : r.domain.policy.declares fact = true := by
  by_contra hfact
  rw [withFact, if_neg hfact] at h
  cases h

theorem Reaches.domain_eq {r s : FactRecord} {log : List Update} (h : r.Reaches log s) :
    s.domain = r.domain := by
  induction h with
  | start => rfl
  | step _ hu ih => exact (domain_of_withFact hu).trans ih

theorem statesOnly_overwrite (r : FactRecord) (log : List Update) :
    StatesOnly (r.fields.map (·.1)) (Update.overwrite r.members log) := by
  intro key hkey
  rw [Update.lookup_overwrite, r.flatMembers.statesOnly key hkey, Option.map_none]

/-- If a record and the merged object agree but for signs, so they do after one more update. The
new fact is then read from the same text in both. -/
theorem merged_step {r s m t : FactRecord} (hdomain : r.domain ≠ .dispute) {log : List Update}
    (hs : s.domain = r.domain) (hplain : s.plain = m.plain)
    (hm : assemble r.domain (.object (Update.overwrite r.members log)) = .ok m) {u : Update}
    (hu : s.withFact u.field u.value = .ok t) :
    ∃ m', assemble r.domain (.object (Update.overwrite r.members (log ++ [u]))) = .ok m' ∧
      t = m'.plain.taking u.field m' := by
  have hfact : r.domain.policy.declares u.field = true := hs ▸ declares_of_withFact hu
  have hmdomain : m.domain = r.domain := (reassembled_of_assemble hm).1
  obtain ⟨a, ha, rfl⟩ : ∃ a, assemble r.domain (.object [(u.field, u.value)]) = .ok a ∧
      s.plain.taking u.field a = t := by
    rw [withFact_of_ne_dispute (hs ▸ hdomain) (hs ▸ hfact), hs, map_eq_pure_bind] at hu
    obtain ⟨a, ha, ht⟩ := exists_of_bind_eq_ok hu
    exact ⟨a, ha, Except.ok.inj ht⟩
  have hadomain : a.domain = m.domain := (reassembled_of_assemble ha).1.trans hmdomain.symm
  refine ⟨m.taking u.field a, ?_, ?_⟩
  · obtain ⟨value, hvalue⟩ := exists_lookup_members hfact
    have hsome : (r.members.lookup u.field).isSome := by rw [hvalue]; rfl
    have hnames : StatesOnly (m.fields.map (·.1)) (Update.overwrite r.members log) := by
      rw [names_eq_of_domain hmdomain]
      exact r.statesOnly_overwrite log
    rw [assemble_eq_of_members r.domain (Update.lookup_overwrite_concat hsome)]
    rw [← hmdomain] at hdomain hm hfact ha ⊢
    rw [assemble_insert hdomain hnames hm hfact, ha, Except.map_ok]
  · calc s.plain.taking u.field a
        = m.plain.taking u.field a := by rw [hplain]
      _ = m.plain.taking u.field (m.taking u.field a) :=
        (taking_taking_other hadomain m.plain u.field).symm
      _ = (m.plain.taking u.field a.plain).taking u.field (m.taking u.field a) :=
        (taking_taking_same (by simp) a.plain u.field).symm
      _ = (m.taking u.field a).plain.taking u.field (m.taking u.field a) := by
        rw [plain_taking]

theorem plain_taking_self (m : FactRecord) (fact : String) :
    (m.plain.taking fact m).plain = m.plain := by
  rw [plain_taking, plain_plain, taking_self]

/-- The record is the one of the merged object. All signs of zeros are lost but one that the last
update put in. -/
theorem Reaches.merged {r s : FactRecord} (hdomain : r.domain ≠ .dispute) {log : List Update}
    (h : r.Reaches log s) :
    ∃ m, assemble r.domain (.object (Update.overwrite r.members log)) = .ok m ∧
      s.plain = m.plain ∧ (log = [] → s = r) ∧
        ∀ last, log.getLast? = some last → s = m.plain.taking last.field m := by
  induction h with
  | start =>
    refine ⟨r.plain, ?_, r.plain_plain.symm, fun _ => rfl, by simp⟩
    rw [Update.overwrite_nil, r.assemble_flat r.flatMembers, reassembled_of_ne_dispute hdomain]
  | @step log s t u hs hu ih =>
    obtain ⟨m, hm, hplain, -⟩ := ih
    obtain ⟨m', hm', rfl⟩ := merged_step hdomain hs.domain_eq hplain hm hu
    refine ⟨m', hm', m'.plain_taking_self u.field, by simp, fun last hlast => ?_⟩
    rw [List.getLast?_concat, Option.some.injEq] at hlast
    rw [hlast]

/-! ## Whole runs -/

theorem accepts_iff (r : FactRecord) (u : Update) :
    r.domain.accepts u = true ↔ ∃ s, r.withFact u.field u.value = .ok s := by
  have h := r.withFact_eq_error_iff u.field u.value
  by_cases hfact : r.domain.policy.declares u.field = true
  · simp only [if_pos hfact] at h
    rw [Domain.accepts, hfact, Bool.true_and]
    cases hu : r.withFact u.field u.value with
    | ok s =>
      cases ha : assemble r.domain (.object [(u.field, u.value)]) with
      | ok a => simp [Except.toBool]
      | error e => cases hu.symm.trans ((h e).mpr ha)
    | error e => simp [(h e).mp hu, Except.toBool]
  · simp only [if_neg hfact] at h
    simp [Domain.accepts, hfact, (h _).mpr rfl]

theorem accepted_eq_filter (r : FactRecord) (updates : List Update) :
    r.accepted updates = updates.filter r.domain.accepts := by
  induction updates generalizing r with
  | nil => rfl
  | cons u rest ih =>
    rw [accepted, List.filter_cons]
    cases hu : r.withFact u.field u.value with
    | ok s =>
      have haccepts : r.domain.accepts u = true := (accepts_iff r u).mpr ⟨s, hu⟩
      simp only [if_pos haccepts, ih s, domain_of_withFact hu]
    | error e =>
      have haccepts : ¬r.domain.accepts u = true := by
        rw [accepts_iff, hu]
        rintro ⟨s, hs⟩
        cases hs
      simp only [if_neg haccepts, ih r]

/-- Two runs with the same last accepted values give the same record, but for signs. -/
theorem updateAll_congr {r : FactRecord} (hdomain : r.domain ≠ .dispute)
    {updates updates' : List Update}
    (h : ∀ field, Update.lastWrite? (r.accepted updates) field =
      Update.lastWrite? (r.accepted updates') field) :
    (r.updateAll updates).plain = (r.updateAll updates').plain := by
  obtain ⟨m, hm, hplain, -⟩ := (r.reaches_updateAll updates).merged hdomain
  obtain ⟨m', hm', hplain', -⟩ := (r.reaches_updateAll updates').merged hdomain
  have hmembers : Update.overwrite r.members (r.accepted updates) =
      Update.overwrite r.members (r.accepted updates') := by
    simp only [Update.overwrite, h]
  rw [hmembers, hm', Except.ok.injEq] at hm
  rw [hplain, hplain', hm]

theorem updateAll_congr_between {r : FactRecord} (hdomain : r.domain ≠ .dispute)
    {middle middle' : List Update} (before after : List Update)
    (h : ∀ field, Update.lastWrite? (middle.filter r.domain.accepts) field =
      Update.lastWrite? (middle'.filter r.domain.accepts) field) :
    (r.updateAll (before ++ middle ++ after)).plain =
      (r.updateAll (before ++ middle' ++ after)).plain := by
  refine updateAll_congr hdomain fun field => ?_
  simp only [accepted_eq_filter, List.filter_append, Update.lastWrite?_append, h]

end FactRecord

open FactRecord in
/-- A run of updates gives the record of the merged object, in which each fact has the value that
was accepted for it last. Only the sign of a zero can be lost, and it stays where the last update
put it in. Whether an update is accepted does not depend on the record, so updates of different
facts can change places, and a later one hides an earlier one. -/
theorem updateAll_eq_merged {r : FactRecord} (hdomain : r.domain ≠ .dispute)
    (updates : List Update) :
    (∃ m, assemble r.domain (.object (Update.overwrite r.members (r.accepted updates))) = .ok m ∧
      (r.updateAll updates).plain = m.plain ∧
      (r.accepted updates = [] → r.updateAll updates = r) ∧
      (∀ last, (r.accepted updates).getLast? = some last →
        r.updateAll updates = m.plain.taking last.field m) ∧
      (r.hasNegativeZero = false → m.hasNegativeZero = false → r.updateAll updates = m)) ∧
    (∀ s : FactRecord, s.domain = r.domain → ∀ u : Update,
      (∃ t, s.withFact u.field u.value = .ok t) ↔ ∃ t, r.withFact u.field u.value = .ok t) ∧
    (∀ u v : Update, u.field ≠ v.field → ∀ before after,
      (r.updateAll (before ++ [u, v] ++ after)).plain =
        (r.updateAll (before ++ [v, u] ++ after)).plain) ∧
    ∀ u v t, u.field = v.field → r.withFact v.field v.value = .ok t → ∀ before between after,
      (r.updateAll (before ++ ([u] ++ between ++ [v]) ++ after)).plain =
        (r.updateAll (before ++ (between ++ [v]) ++ after)).plain := by
  obtain ⟨m, hm, hplain, hnone, hlast⟩ := (r.reaches_updateAll updates).merged hdomain
  refine ⟨⟨m, hm, hplain, hnone, hlast, fun hr hsign => ?_⟩, fun s hs u => ?_, fun u v h => ?_,
    fun u v t h hv => ?_⟩
  · cases haccepted : (r.accepted updates).getLast? with
    | none =>
      rw [← (plain_eq_self_iff m).mpr hsign, ← hplain,
        hnone (List.getLast?_eq_none_iff.mp haccepted), (plain_eq_self_iff r).mpr hr]
    | some last =>
      rw [hlast last haccepted, (plain_eq_self_iff m).mpr hsign, taking_self]
  · rw [← accepts_iff, ← accepts_iff, hs]
  · exact fun before after => updateAll_congr_between hdomain before after
      (Update.lastWrite?_swap h r.domain.accepts)
  · have haccepts : r.domain.accepts v = true := (accepts_iff r v).mpr ⟨t, hv⟩
    exact fun before between after => updateAll_congr_between hdomain before after
      (Update.lastWrite?_hides h haccepts between)

/-- A payment of which nothing is known. -/
def unknownPayment : FactRecord :=
  .authorization ⟨none, none, none, none, none, none, none⟩

/-- The amount is corrected, and an update between the two fails. -/
def corrections : List Update :=
  [⟨"amount", .integer 80⟩, ⟨"velocity_1h", .string "many"⟩, ⟨"amount", .string "95.50"⟩]

theorem updateAll_eq_merged_corrections :
    unknownPayment.domain ≠ .dispute ∧
      FactRecord.assemble .authorization (.object []) = .ok unknownPayment ∧
      ∃ m, FactRecord.assemble .authorization
          (.object (Update.overwrite unknownPayment.members
            (unknownPayment.accepted corrections))) = .ok m ∧
        unknownPayment.updateAll corrections = m := by
  have hdomain : unknownPayment.domain ≠ .dispute := by decide
  obtain ⟨⟨m, hm, -, -, hlast, heq⟩, -⟩ := updateAll_eq_merged hdomain corrections
  refine ⟨hdomain, rfl, m, hm, heq rfl ?_⟩
  cases hm
  decide

/-- A zero with a sign, and an update of another fact. -/
def signedUpdates : List Update :=
  [⟨"amount", .string "-0.1e-28"⟩, ⟨"velocity_1h", .integer 1⟩]

/-- The second update takes the sign from the zero, which the merged object keeps. -/
theorem sign_lost_between_updates :
    FactRecord.assemble .authorization (.object []) = .ok unknownPayment ∧
      ∃ m, FactRecord.assemble .authorization
          (.object (Update.overwrite unknownPayment.members
            (unknownPayment.accepted signedUpdates))) = .ok m ∧
        unknownPayment.updateAll signedUpdates ≠ m ∧
        unknownPayment.updateAll signedUpdates ≠
          unknownPayment.updateAll signedUpdates.reverse := by
  refine ⟨rfl, _, rfl, ?_, ?_⟩ <;> decide

end Verdict
