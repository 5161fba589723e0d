import Verdict.Command.Invocation
import Verdict.Proofs.RecordLookup
import Verdict.Proofs.Results

/-!
# Arguments that say how an answer is printed

The arguments in one place are read entry by entry, and each entry adds to what has been stated. The
quiet flag and the output format leave alone what a task is made of. So arguments that are accepted
with and without one of them, wherever it stands, ask for the same task.
-/

namespace Verdict.Command

/-! ## Entries of a place -/

/-- What is stated at once. -/
inductive Entry where
  | quiet
  | value (option : ValueOption) (text : String)
  | domain (text : String)

/-- Takes note of an entry. -/
def Stated.enter (verb : Option Verb) (s : Stated) : Entry → Except Refusal Stated
  | .quiet => s.noteQuiet
  | .value option text => s.note option text
  | .domain text => s.noteDomain verb text

/-- The arguments are those of one entry. -/
inductive IsEntry (verb : Option Verb) : List String → Entry → Prop where
  | quiet {argument name : String} (hargument : Token.ofArgument argument = .long name none)
      (hname : Flag.ofName? verb name = some .quiet) : IsEntry verb [argument] .quiet
  | value {argument name text : String} {option : ValueOption}
      (hargument : Token.ofArgument argument = .long name (some text))
      (hname : ValueOption.ofName? verb name = some option) :
      IsEntry verb [argument] (.value option text)
  | next {argument name following text : String} {option : ValueOption}
      (hargument : Token.ofArgument argument = .long name none)
      (hflag : Flag.ofName? verb name = none)
      (hname : ValueOption.ofName? verb name = some option)
      (hfollowing : Token.ofArgument following = .plain text) :
      IsEntry verb [argument, following] (.value option text)
  | domain {argument text : String} {found : Verb} (hargument : Token.ofArgument argument = .plain text)
      (hverb : verb = some found) : IsEntry verb [argument] (.domain text)

variable {verb : Option Verb} {s t s' t' : Stated}

theorem readPlace_append {head : List String} {entry : Entry} (h : IsEntry verb head entry)
    (s : Stated) (rest : List String) :
    readPlace verb s (head ++ rest) = s.enter verb entry >>= fun s => readPlace verb s rest := by
  cases h with
  | quiet hargument hname =>
    rw [List.singleton_append, readPlace]
    simp only [hargument, hname, Stated.enter]
  | value hargument hname =>
    rw [List.singleton_append, readPlace]
    simp only [hargument, hname, Stated.enter]
  | next hargument hflag hname hfollowing =>
    rw [List.cons_append, List.singleton_append, readPlace]
    simp only [hargument, hflag, hname, hfollowing, Stated.enter]
  | domain hargument hverb =>
    subst hverb
    rw [List.singleton_append, readPlace]
    simp only [hargument, Stated.enter]

/-- How a place is read: entries, and then nothing more, nothing but subjects, or the task. -/
inductive Reads (verb : Option Verb) : Stated → List String → Place → Prop where
  | nil (s : Stated) : Reads verb s [] (s, none)
  | entry {s s' : Stated} {head rest : List String} {entry : Entry} {place : Place}
      (hentry : IsEntry verb head entry) (hs : s.enter verb entry = .ok s')
      (hrest : Reads verb s' rest place) : Reads verb s (head ++ rest) place
  | domains {s s' : Stated} {argument : String} {rest : List String}
      (hargument : Token.ofArgument argument = .endOfOptions)
      (hs : rest.foldlM (Stated.noteDomain verb) s = .ok s') :
      Reads verb s (argument :: rest) (s', none)
  | task {s : Stated} {argument text : String} {rest : List String} {found : Verb}
      (hverb : verb = none) (hargument : Token.ofArgument argument = .plain text)
      (hfound : Verb.ofName? text = some found) :
      Reads verb s (argument :: rest) (s, some (found, rest))

/-- Whatever is accepted is read so. -/
theorem reads_of_readPlace {arguments : List String} {place : Place}
    (h : readPlace verb s arguments = .ok place) : Reads verb s arguments place := by
  fun_induction readPlace verb s arguments with
  | case1 s =>
    cases h
    exact .nil s
  | case2 s argument rest hargument =>
    obtain ⟨s', hs, h⟩ := exists_of_bind_eq_ok h
    cases h
    exact .domains hargument hs
  | case4 s argument rest name value hargument option hname ih =>
    obtain ⟨s', hs, h⟩ := exists_of_bind_eq_ok h
    exact .entry (.value hargument hname) hs (ih s' h)
  | case6 s argument rest name hargument hname ih =>
    obtain ⟨s', hs, h⟩ := exists_of_bind_eq_ok h
    exact .entry (.quiet hargument hname) hs (ih s' h)
  | case9 s argument name hargument hflag option following rest hname text hfollowing ih =>
    obtain ⟨s', hs, h⟩ := exists_of_bind_eq_ok h
    exact .entry (.next hargument hflag hname hfollowing) hs (ih s' h)
  | case12 s argument rest text hargument found hverb ih =>
    subst hverb
    obtain ⟨s', hs, h⟩ := exists_of_bind_eq_ok h
    exact .entry (.domain hargument rfl) hs (ih s' h)
  | case13 s argument rest text hargument hverb found hfound =>
    subst hverb
    cases h
    exact .task rfl hargument hfound
  | case3 | case5 | case7 | case8 | case10 | case11 | case14 => cases h

theorem readPlace_domains {argument : String}
    (hargument : Token.ofArgument argument = .endOfOptions) (s : Stated) (rest : List String) :
    readPlace verb s (argument :: rest) =
      rest.foldlM (Stated.noteDomain verb) s >>= fun s => pure (s, none) := by
  rw [readPlace]
  simp only [hargument]

theorem readPlace_task {argument text : String} {found : Verb}
    (hargument : Token.ofArgument argument = .plain text) (hfound : Verb.ofName? text = some found)
    (s : Stated) (rest : List String) :
    readPlace none s (argument :: rest) = .ok (s, some (found, rest)) := by
  rw [readPlace]
  simp only [hargument, hfound]

/-- An option does not take an argument that looks like an option. -/
theorem readPlace_unvalued {argument name following : String} {option : ValueOption}
    (hargument : Token.ofArgument argument = .long name none)
    (hflag : Flag.ofName? verb name = none) (hname : ValueOption.ofName? verb name = some option)
    (hfollowing : ∀ text, Token.ofArgument following ≠ .plain text) (s : Stated)
    (rest : List String) : readPlace verb s (argument :: following :: rest) = .error .usage := by
  rw [readPlace]
  simp only [hargument, hflag, hname]

/-- An option is not parted from its value by something that looks like an option. -/
theorem IsEntry.readPlace_parted {first following flag : String} {before parted : List String}
    {entry : Entry} (h : IsEntry verb (first :: before ++ following :: parted) entry)
    (hflag : ∀ text, Token.ofArgument flag ≠ .plain text) (rest : List String) :
    readPlace verb s (first :: before ++ flag :: rest) = .error .usage := by
  generalize hhead : first :: before ++ following :: parted = head at h
  cases h with
  | quiet => simp at hhead
  | value => simp at hhead
  | domain => simp at hhead
  | next hargument hoption hname =>
    obtain ⟨rfl, hhead⟩ := List.cons.inj hhead
    obtain rfl : before = [] := by
      cases before with
      | nil => rfl
      | cons second before => simp at hhead
    exact readPlace_unvalued hargument hoption hname hflag s rest

theorem toList_domain_of_foldlM {domains : List String}
    (h : domains.foldlM (Stated.noteDomain verb) s = .ok s') :
    s'.domain.toList = s.domain.toList ++ domains ∧ (domains ≠ [] → verb.isSome) := by
  induction domains generalizing s with
  | nil =>
    cases h
    exact ⟨(List.append_nil _).symm, (absurd rfl ·)⟩
  | cons domain rest ih =>
    obtain ⟨s₁, hs₁, h⟩ := exists_of_bind_eq_ok h
    rw [Stated.noteDomain] at hs₁
    split at hs₁ <;> cases hs₁
    rename_i hnote
    rw [(ih h).1, Option.isNone_iff_eq_none.mp hnote.2]
    exact ⟨rfl, fun _ => hnote.1⟩

/-- What is stated after an entry. -/
def Stated.including (s : Stated) : Entry → Stated
  | .quiet => { s with quiet := true }
  | .value .output text => { s with output := Format.ofName? text }
  | .value .facts text => { s with facts := some text }
  | .value .mode text => { s with mode := modeOfName? text }
  | .value .flip text => { s with flip := some text }
  | .domain text => { s with domain := some text }

theorem eq_including {entry : Entry} (h : s.enter verb entry = .ok s') :
    s' = s.including entry := by
  rcases entry with _ | ⟨_ | _ | _ | _, text⟩ | text <;>
    simp only [Stated.enter, Stated.note, Stated.noteQuiet, Stated.noteDomain] at h
  · split at h <;> cases h
    rfl
  · split at h <;> cases h
    rename_i hformat
    rw [Stated.including, hformat]
  · split at h <;> cases h
    rfl
  · split at h <;> cases h
    rename_i hmode
    rw [Stated.including, hmode]
  · split at h <;> cases h
    rfl
  · split at h <;> cases h
    rfl

/-! ## Presentation -/

/-- The same is stated, but for how an answer is printed. -/
structure Stated.SameTask (s t : Stated) : Prop where
  facts : s.facts = t.facts
  mode : s.mode = t.mode
  flip : s.flip = t.flip
  domain : s.domain = t.domain

namespace Stated.SameTask

theorem refl (s : Stated) : s.SameTask s :=
  ⟨rfl, rfl, rfl, rfl⟩

theorem trans {u : Stated} (h : s.SameTask t) (h' : t.SameTask u) : s.SameTask u :=
  ⟨h.facts.trans h'.facts, h.mode.trans h'.mode, h.flip.trans h'.flip, h.domain.trans h'.domain⟩

theorem task?_eq (h : s.SameTask t) (verb : Verb) : s.task? verb = t.task? verb := by
  rw [task?, task?, h.facts, h.mode, h.flip, h.domain]

theorem including (h : s.SameTask t) (entry : Entry) :
    (s.including entry).SameTask (t.including entry) := by
  cases entry with
  | quiet => exact ⟨h.facts, h.mode, h.flip, h.domain⟩
  | domain text => exact ⟨h.facts, h.mode, h.flip, rfl⟩
  | value option text =>
    cases option with
    | output => exact ⟨h.facts, h.mode, h.flip, h.domain⟩
    | facts => exact ⟨rfl, h.mode, h.flip, h.domain⟩
    | mode => exact ⟨h.facts, rfl, h.flip, h.domain⟩
    | flip => exact ⟨h.facts, h.mode, rfl, h.domain⟩

theorem enter (h : s.SameTask t) (entry : Entry) (hs : s.enter verb entry = .ok s')
    (ht : t.enter verb entry = .ok t') : s'.SameTask t' := by
  rw [eq_including hs, eq_including ht]
  exact h.including entry

theorem foldlM_noteDomain (h : s.SameTask t) {domains : List String}
    (hs : domains.foldlM (Stated.noteDomain verb) s = .ok s')
    (ht : domains.foldlM (Stated.noteDomain verb) t = .ok t') : s'.SameTask t' := by
  induction domains generalizing s t with
  | nil =>
    cases hs
    cases ht
    exact h
  | cons domain rest ih =>
    obtain ⟨s₁, hs₁, hs⟩ := exists_of_bind_eq_ok hs
    obtain ⟨t₁, ht₁, ht⟩ := exists_of_bind_eq_ok ht
    exact ih (h.enter (.domain domain) hs₁ ht₁) hs ht

end Stated.SameTask

/-- What has been stated about the presentation does not tell in what follows. -/
theorem sameTask_of_reads {arguments : List String} {place place' : Place}
    (hreads : Reads verb s arguments place) (h : s.SameTask t)
    (hplace : readPlace verb t arguments = .ok place') :
    place.1.SameTask place'.1 ∧ place'.2 = place.2 := by
  induction hreads generalizing t with
  | nil s =>
    cases hplace
    exact ⟨h, rfl⟩
  | entry hentry hs hrest ih =>
    rw [readPlace_append hentry] at hplace
    obtain ⟨t', ht, hplace⟩ := exists_of_bind_eq_ok hplace
    exact ih (h.enter _ hs ht) hplace
  | domains hargument hs =>
    rw [readPlace_domains hargument] at hplace
    obtain ⟨t', ht, hplace⟩ := exists_of_bind_eq_ok hplace
    cases hplace
    exact ⟨h.foldlM_noteDomain hs ht, rfl⟩
  | task hverb hargument hfound =>
    subst hverb
    rw [readPlace_task hargument hfound] at hplace
    cases hplace
    exact ⟨h, rfl⟩

theorem quiet_of_foldlM {domains : List String} (h : s.quiet = true)
    (hs : domains.foldlM (Stated.noteDomain verb) s = .ok s') : s'.quiet = true := by
  induction domains generalizing s with
  | nil =>
    cases hs
    exact h
  | cons domain rest ih =>
    obtain ⟨s₁, hs₁, hs⟩ := exists_of_bind_eq_ok hs
    refine ih ?_ hs
    have hs₁ : s.enter verb (.domain domain) = .ok s₁ := hs₁
    rw [eq_including hs₁]
    exact h

/-- The quiet flag is not taken back. -/
theorem quiet_of_reads {arguments : List String} {place : Place}
    (hreads : Reads verb s arguments place) (h : s.quiet = true) : place.1.quiet = true := by
  induction hreads with
  | nil s => exact h
  | @entry s s' head rest entry place hentry hs hrest ih =>
    apply ih
    rw [eq_including hs]
    rcases entry with _ | ⟨_ | _ | _ | _, text⟩ | text
    · rfl
    all_goals exact h
  | domains hargument hs => exact quiet_of_foldlM h hs
  | task => exact h

/-- The word for a format. -/
def Format.name : Format → String
  | text => "text"
  | json => "json"

/-- What the arguments can say about how an answer is printed. -/
inductive Presentation where
  | quiet
  | output (format : Format)
  /-- The format after an equals sign. -/
  | outputIs (format : Format)

namespace Presentation

/-- The arguments that say so. -/
def arguments : Presentation → List String
  | quiet => ["--quiet"]
  | output format => ["--output", format.name]
  | outputIs format => ["--output=" ++ format.name]

/-- The entry that is made of them. -/
def entry : Presentation → Entry
  | quiet => .quiet
  | output format | outputIs format => .value .output format.name

variable {flag : Presentation} {before after : List String} {place place' : Place}

theorem isEntry (flag : Presentation) (verb : Option Verb) :
    IsEntry verb flag.arguments flag.entry := by
  have hquiet : Token.ofArgument "--quiet" = .long "quiet" none := rfl
  have houtput : Token.ofArgument "--output" = .long "output" none := rfl
  have hformat : ∀ format : Format, Token.ofArgument format.name = .plain format.name
    | .text | .json => rfl
  have houtputIs : ∀ format : Format,
      Token.ofArgument ("--output=" ++ format.name) = .long "output" (some format.name)
    | .text | .json => rfl
  cases flag with
  | quiet => exact .quiet hquiet rfl
  | output format => exact .next houtput rfl rfl (hformat format)
  | outputIs format => exact .value (houtputIs format) rfl

theorem sameTask_including (flag : Presentation) (s : Stated) :
    s.SameTask (s.including flag.entry) := by
  cases flag <;> exact ⟨rfl, rfl, rfl, rfl⟩

/-- The first of them looks like an option. -/
theorem arguments_eq_cons (flag : Presentation) :
    ∃ first rest, flag.arguments = first :: rest ∧ ∀ text, Token.ofArgument first ≠ .plain text := by
  cases flag with
  | quiet | output format => exact ⟨_, _, rfl, nofun⟩
  | outputIs format => cases format <;> exact ⟨_, _, rfl, nofun⟩

/-- The ends of a place without and with the arguments in it. They are left to the next place if
they stand after the task. -/
def EndsAlike (flag : Presentation) (after : List String) (place place' : Place) : Prop :=
  place.1.SameTask place'.1 ∧
    ((place'.2 = place.2 ∧ (flag = .quiet → place'.1.quiet = true)) ∨
      ∃ found before, place.2 = some (found, before ++ after) ∧
        place'.2 = some (found, before ++ (flag.arguments ++ after)))

/-- Put in front, they change nothing that the task depends on. -/
theorem endsAlike_front (hst : s.SameTask t) (hreads : Reads verb s after place)
    (hplace : readPlace verb t (flag.arguments ++ after) = .ok place') :
    EndsAlike flag after place place' := by
  rw [readPlace_append (flag.isEntry verb)] at hplace
  obtain ⟨t', ht, hplace⟩ := exists_of_bind_eq_ok hplace
  rw [eq_including ht] at hplace
  obtain ⟨hsame, hend⟩ := sameTask_of_reads hreads (hst.trans (flag.sameTask_including t)) hplace
  refine ⟨hsame, .inl ⟨hend, ?_⟩⟩
  rintro rfl
  exact quiet_of_reads (reads_of_readPlace hplace) rfl

/-- Put anywhere, they change nothing that the task depends on. -/
theorem endsAlike_inserted (hst : s.SameTask t) {arguments : List String}
    (hreads : Reads verb s arguments place) (harguments : arguments = before ++ after)
    (hdomain : verb.isSome → place.1.domain.isSome)
    (hplace : readPlace verb t (before ++ (flag.arguments ++ after)) = .ok place') :
    EndsAlike flag after place place' := by
  obtain rfl | hbefore := eq_or_ne before []
  · subst harguments
    exact endsAlike_front hst hreads hplace
  induction hreads generalizing before t with
  | nil s => exact absurd (List.append_eq_nil_iff.mp harguments.symm).1 hbefore
  | @entry s s' head rest entry place hentry hs hrest ih =>
    have hafter : ∀ before', before = head ++ before' → rest = before' ++ after →
        EndsAlike flag after place place' := by
      rintro before' rfl hrest'
      rw [List.append_assoc, readPlace_append hentry] at hplace
      obtain ⟨t', ht, hplace⟩ := exists_of_bind_eq_ok hplace
      obtain rfl | hbefore' := eq_or_ne before' []
      · subst hrest'
        exact endsAlike_front (hst.enter entry hs ht) hrest hplace
      · exact ih (hst.enter entry hs ht) hrest' hdomain hplace hbefore'
    rcases List.append_eq_append_iff.mp harguments with
      ⟨before', hhead, hrest'⟩ | ⟨parted, hhead, hafter'⟩
    · exact hafter before' hhead hrest'
    · cases parted with
      | nil => exact hafter [] (by simpa using hhead.symm) (by simpa using hafter'.symm)
      | cons following parted =>
        -- they would stand between an option and its value
        obtain ⟨first, before, rfl⟩ := List.exists_cons_of_ne_nil hbefore
        obtain ⟨option, value, hflag, hoption⟩ := flag.arguments_eq_cons
        subst hhead
        rw [hflag, List.cons_append (a := option), hentry.readPlace_parted hoption] at hplace
        cases hplace
  | @domains s s' argument rest hargument hs =>
    obtain ⟨first, before, rfl⟩ := List.exists_cons_of_ne_nil hbefore
    rw [List.cons_append] at harguments
    obtain ⟨rfl, rfl⟩ := List.cons.inj harguments
    -- they would be subjects, in addition to the one there is
    rw [List.cons_append, readPlace_domains hargument] at hplace
    obtain ⟨t', ht, -⟩ := exists_of_bind_eq_ok hplace
    obtain ⟨option, value, hflag, -⟩ := flag.arguments_eq_cons
    rw [hflag] at ht
    obtain ⟨ht, hverb⟩ := toList_domain_of_foldlM ht
    obtain ⟨hs, -⟩ := toList_domain_of_foldlM hs
    have hs' : 0 < s'.domain.toList.length := by
      rw [Option.length_toList, hdomain (hverb (by simp))]
      decide
    have ht' : t'.domain.toList.length ≤ 1 := by
      rw [Option.length_toList]
      split <;> omega
    rw [hs, hst.domain] at hs'
    rw [ht] at ht'
    simp only [List.length_append, List.length_cons] at hs' ht'
    omega
  | @task s argument text rest found hverb hargument hfound =>
    subst hverb
    obtain ⟨first, before, rfl⟩ := List.exists_cons_of_ne_nil hbefore
    rw [List.cons_append] at harguments
    obtain ⟨rfl, rfl⟩ := List.cons.inj harguments
    rw [List.cons_append, readPlace_task hargument hfound] at hplace
    cases hplace
    exact ⟨hst, .inr ⟨found, before, rfl, rfl⟩⟩

end Presentation

/-- After the task, the place ends with the arguments. -/
theorem Reads.last_eq_none {arguments : List String} {place : Place}
    (h : Reads verb s arguments place) (hverb : verb.isSome) : place.2 = none := by
  induction h with
  | nil | domains => rfl
  | entry hentry hs hrest ih => exact ih
  | task hnone =>
    rw [hnone] at hverb
    cases hverb

/-- What it takes that arguments are accepted. -/
theorem Invocation.exists_of_ofArguments {arguments : List String} {i : Invocation}
    (h : Invocation.ofArguments arguments = .ok i) :
    ∃ outer verb rest inner last, readPlace none {} arguments = .ok (outer, some (verb, rest)) ∧
      readPlace (some verb) {} rest = .ok (inner, last) ∧ inner.task? verb = some i.task ∧
      i.quiet = (outer.quiet || inner.quiet) := by
  obtain ⟨⟨outer, rest⟩, houter, h⟩ := exists_of_bind_eq_ok h
  cases rest with
  | none => cases h
  | some rest =>
    obtain ⟨verb, rest⟩ := rest
    obtain ⟨⟨inner, last⟩, hinner, h⟩ := exists_of_bind_eq_ok h
    cases htask : inner.task? verb with
    | none =>
      simp only [htask] at h
      cases h
    | some task =>
      simp only [htask] at h
      cases h
      exact ⟨outer, verb, rest, inner, last, houter, hinner, htask, rfl⟩

/-- A task is about a domain. -/
theorem Stated.isSome_domain_of_task? {verb : Verb} {task : Task} (h : s.task? verb = some task) :
    s.domain.isSome := by
  obtain ⟨domain, hdomain, -⟩ := Option.bind_eq_some_iff.mp h
  rw [hdomain]
  rfl

/-- Arguments that say how an answer is printed do not change the task, wherever they stand. -/
theorem task_of_inserted {flag : Presentation} {before after : List String}
    {plain shown : Invocation} (hplain : Invocation.ofArguments (before ++ after) = .ok plain)
    (hshown : Invocation.ofArguments (before ++ (flag.arguments ++ after)) = .ok shown) :
    shown.task = plain.task ∧ (flag = .quiet → shown.quiet = true) := by
  obtain ⟨outer, verb, rest, inner, last, houter, hinner, htask, -⟩ :=
    Invocation.exists_of_ofArguments hplain
  obtain ⟨outer', verb', rest', inner', last', houter', hinner', htask', hquiet⟩ :=
    Invocation.exists_of_ofArguments hshown
  obtain ⟨-, ⟨hend, houtermost⟩ | ⟨found, between, hend, hend'⟩⟩ :=
    Presentation.endsAlike_inserted (.refl {}) (reads_of_readPlace houter) rfl nofun houter'
  · cases hend
    have hsame := (sameTask_of_reads (reads_of_readPlace hinner) (.refl {}) hinner').1
    rw [← hsame.task?_eq, htask, Option.some.injEq] at htask'
    refine ⟨htask'.symm, fun hflag => ?_⟩
    rw [hquiet, houtermost hflag, Bool.true_or]
  · cases hend
    cases hend'
    obtain ⟨hsame, hlast⟩ := Presentation.endsAlike_inserted (.refl {}) (reads_of_readPlace hinner)
      rfl (fun _ => Stated.isSome_domain_of_task? htask) hinner'
    rw [← hsame.task?_eq, htask, Option.some.injEq] at htask'
    refine ⟨htask'.symm, fun hflag => ?_⟩
    rcases hlast with ⟨-, hinnermost⟩ | ⟨_, _, hlast, -⟩
    · rw [hquiet, hinnermost hflag, Bool.or_true]
    · rw [(reads_of_readPlace hinner).last_eq_none rfl] at hlast
      cases hlast

end Verdict.Command
