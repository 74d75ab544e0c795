import Roster.Proofs.Lookup.Requests
import Roster.Proofs.Lookup.Settlement

/-!
# Stopping lookups

With a timed pause a lookup ends when its delay has passed or when it hears a stop, and hears none
but those on its own source. Sources may be shared by lookups in any stores, and stopped before,
during and after their waits, again and again.

One step says it all: at the end of its pause a lookup is cancelled if by then a stop has been
requested on the source that it listens to, and otherwise finds what the directory holds
(`outcome_past`). What has been requested by then is a matter of the run up to that moment
(`isStopped_pastAll`).
-/

namespace Roster.Registry

open Log (Event)

/-! ## The end of a timed pause -/

def outcomeOf? (r : Registry) (handle : Nat) : Option Lookup.Outcome :=
  (r.lookups[handle]?).bind Lookup.outcome?

theorem outcomeOf?_eq_some {r : Registry} {handle : Nat} {outcome : Lookup.Outcome} :
    r.outcomeOf? handle = some outcome ↔
      ∃ l, r.lookups[handle]? = some l ∧ l.outcome? = some outcome :=
  Option.bind_eq_some_iff

theorem Continues.outcomeOf? {r r' : Registry} (h : r.Continues r') {handle : Nat}
    {outcome : Lookup.Outcome} (ho : r.outcomeOf? handle = some outcome) :
    r'.outcomeOf? handle = some outcome := by
  obtain ⟨l, hl, hlo⟩ := outcomeOf?_eq_some.mp ho
  obtain ⟨l', hl', hcont⟩ := h handle l hl
  exact outcomeOf?_eq_some.mpr ⟨l', hl', hcont.outcome outcome hlo⟩

/-- A lookup that has come to an outcome did so at one moment of the run. -/
theorem exists_end {r : Registry} {os : List Occurrence} {handle : Nat} {outcome : Lookup.Outcome}
    (hnone : r.outcomeOf? handle = none) (hsome : (r.pastAll os).outcomeOf? handle = some outcome) :
    ∃ before o after, os = before ++ o :: after ∧ (r.pastAll before).outcomeOf? handle = none ∧
      (r.pastAll (before ++ [o])).outcomeOf? handle = some outcome := by
  induction os generalizing r with
  | nil =>
    rw [pastAll_nil, hnone] at hsome
    cases hsome
  | cons o os ih =>
    cases hpast : (r.past o).outcomeOf? handle with
    | none =>
      obtain ⟨before, o', after, rfl, hbefore, hafter⟩ := ih hpast hsome
      exact ⟨o :: before, o', after, rfl, hbefore, hafter⟩
    | some outcome' =>
      cases hsome.symm.trans ((continues_pastAll (r.past o) os).outcomeOf? hpast)
      exact ⟨[], o, os, rfl, hnone, hpast⟩

/-- A lookup has heard a stop if it listens and the run has requested one on its source. -/
theorem hears_pastAll (os : List Occurrence) (l : Lookup) :
    (empty.pastAll os).hears l = (l.listens && decide (l.source ∈ empty.requests os)) := by
  rw [hears, isStopped_pastAll sound_empty]
  rfl

theorem hears_congr {r r' : Registry} {l l' : Lookup} (hsources : r'.sources = r.sources)
    (hlistens : l'.listens = l.listens) (hsource : l'.source = l.source) :
    r'.hears l' = r.hears l := by
  rw [hears, hears, hlistens, hsource, isStopped_congr hsources]

/-- A stop is heard by every lookup that it wakes. -/
theorem hears_requestStop {r : Registry} {l : Lookup} {source : Nat} (h : r.Fit l)
    (hwakes : l.wakesOn source = true) :
    (r.requestStop source).1.hears (r.conclude l .interrupted) = true := by
  obtain ⟨_, hlistens, rfl⟩ := Lookup.wakesOn_iff.mp hwakes
  show (l.listens && (r.requestStop l.source).1.isStopped l.source) = true
  rw [isStopped_requestStop, hlistens]
  simp [h.source]

theorem getElem?_elapse_of_sleeping {r : Registry} {handle : Nat} {l : Lookup}
    (hl : r.lookups[handle]? = some l) (hsleeping : l.phase = .sleeping) :
    (r.elapse handle).1.lookups[handle]? =
      some (r.conclude l (.ofCompletes (!r.hears l))) := by
  rw [elapse_of_sleeping hl hsleeping]
  exact getElem?_setLookup_self hl _

theorem hears_elapse (r : Registry) (handle : Nat) (l : Lookup) (v : Pause.Verdict) :
    (r.elapse handle).1.hears (r.conclude l v) = r.hears l :=
  hears_congr (sources_elapse r handle) rfl rfl

theorem pauses_lookup (r : Registry) (n : Int) (id : UInt64) (token : Lookup.Token) :
    (r.after (.command (.lookup n id token))).pauses =
      (r.after (.start n id token)).pauses := by
  rw [after_lookup_eq]
  split
  · exact congrArg (List.map Store.pause) (stores_elapse _ _)
  · rfl

/-- **A timed pause completes unless its lookup has heard a stop by its end.** -/
theorem Returns.verdict {r : Registry} {m : Move} {handle : Nat} {v : Pause.Verdict}
    (h : Returns r m handle v) (hr : r.Sound) {l' : Lookup}
    (hl' : (r.after m).lookups[handle]? = some l')
    (htimed : (r.after m).pauses[l'.store]? = some .timed) :
    v = .ofCompletes (!(r.after m).hears l') := by
  induction h generalizing l' with
  | @called n id token i s a v hn hs ha hv =>
    have hafter : r.after (.start n id token) = (launch a i s id).registry := by
      rw [after, start?_of_attach hn hs ha, Option.elim_some]
    rw [hafter, lookups_launch ha, List.getElem?_concat_length] at hl'
    cases hl'
    rw [hafter, pauses_launch ha, pauses, List.getElem?_map] at htimed
    have hpause : s.pause = .timed := by
      have hi : (launched a i s id).store = i := rfl
      rw [hi, hs, Option.map_some] at htimed
      exact Option.some.inj htimed
    rw [Store.response, hpause] at hv
    rw [hafter]
    exact Pause.verdict_of_timed hv
  | @elapsed handle l hl hsleeping =>
    cases (getElem?_elapse_of_sleeping hl hsleeping).symm.trans hl'
    rw [after, hears_elapse]
  | @stopped n i asked handle l hn hasked hlistens hl hwakes =>
    rw [after, next_of_perform (perform_stop hn hasked hlistens)] at hl' ⊢
    rw [getElem?_requestStop, hl, Option.map_some, if_pos hwakes] at hl'
    cases hl'
    rw [hears_requestStop (hr l (List.mem_of_getElem? hl)) hwakes]
    rfl
  | @released n how handle l hn hl hgated =>
    -- A pause that is let go is not a timed one.
    rw [after, next_of_perform (perform_release hn hl hgated)] at hl' htimed
    cases (getElem?_setLookup_self hl _).symm.trans hl'
    have hpause := (hr l (List.mem_of_getElem? hl)).gated hgated
    cases hpause.symm.trans htimed
  | @looked n id token handle v hv ih =>
    -- Sitting the delay out stops no source, and changes no lookup that has ended.
    obtain ⟨l, hl, _⟩ := hv.outcome
    obtain ⟨l₁, hl₁, hcont⟩ := continues_lookup r n id token handle l hl
    cases hl₁.symm.trans hl'
    rw [pauses_lookup, hcont.store] at htimed
    rw [hears_congr (sources_lookup r n id token) hcont.listens hcont.source]
    exact ih hl htimed
  | @satOut n id token l hsits hl hsleeping =>
    have hlast : r.after (.command (.lookup n id token)) =
        ((r.after (.start n id token)).elapse r.lookups.length).1 := by
      rw [after_lookup_eq, if_pos hsits]
    rw [hlast, getElem?_elapse_of_sleeping hl hsleeping] at hl'
    cases hl'
    rw [hlast, hears_elapse]

/-- **What a timed lookup comes to**, at the moment when it does. -/
theorem outcome_past {r : Registry} (hr : r.Sound) {o : Occurrence} {handle : Nat} {l' : Lookup}
    {outcome : Lookup.Outcome} (hnone : r.outcomeOf? handle = none)
    (hl' : (r.past o).lookups[handle]? = some l') (ho : l'.outcome? = some outcome)
    (htimed : (r.past o).pauses[l'.store]? = some .timed) :
    outcome = if (r.past o).hears l' then .failed (Lookup.cancelled l'.id)
      else .found ((r.directory l'.store).find? l'.id) := by
  cases o with
  | move m =>
    rcases returns_of_outcome hl' ho with hold | ⟨v, hv⟩
    · rw [outcomeOf?_eq_some.mpr hold] at hnone
      cases hnone
    · obtain ⟨l, hl, hlo⟩ := hv.outcome
      cases hl.symm.trans hl'
      rw [hv.verdict hr hl' htimed] at hlo
      cases ho.symm.trans hlo
      rw [past]
      cases (r.after m).hears l' <;> rfl
  | request source =>
    rw [past, getElem?_requestStop] at hl'
    obtain ⟨l, hl, hl'⟩ := Option.map_eq_some_iff.mp hl'
    split at hl'
    · next hwakes =>
      cases hl'
      cases ho
      rw [past, if_pos (hears_requestStop (hr l (List.mem_of_getElem? hl)) hwakes)]
      rfl
    · cases hl'
      rw [outcomeOf?_eq_some.mpr ⟨l, hl, ho⟩] at hnone
      cases hnone

/-- The same told from the run: `after` is whatever comes once the lookup has ended. -/
theorem outcome_of_end {before after : List Occurrence} {o : Occurrence} {handle : Nat}
    {l : Lookup} {outcome : Lookup.Outcome}
    (hl : (empty.pastAll (before ++ o :: after)).lookups[handle]? = some l)
    (htimed : (empty.pastAll (before ++ o :: after)).pauses[l.store]? = some .timed)
    (hnone : (empty.pastAll before).outcomeOf? handle = none)
    (hended : (empty.pastAll (before ++ [o])).outcomeOf? handle = some outcome) :
    outcome =
      if l.listens = true ∧ l.source ∈ empty.requests (before ++ [o]) then
        .failed (Lookup.cancelled l.id)
      else .found (((empty.pastAll before).directory l.store).find? l.id) := by
  obtain ⟨l₁, hl₁, ho⟩ := outcomeOf?_eq_some.mp hended
  rw [List.append_cons, pastAll_append] at hl htimed
  obtain ⟨l₂, hl₂, hcont⟩ := continues_pastAll _ after handle l₁ hl₁
  cases hl₂.symm.trans hl
  -- The pause of the store was the same one when the lookup ended.
  have hpause : (empty.pastAll (before ++ [o])).pauses[l₁.store]? = some .timed := by
    have hfit := sound_pastAll (before ++ [o]) l₁ (List.mem_of_getElem? hl₁)
    rw [← hfit.pause_eq (leads_pastAll _ after).pauses, ← hcont.store]
    exact htimed
  have hend := outcome_past (sound_pastAll before) hnone
    (pastAll_concat empty before o ▸ hl₁) ho (pastAll_concat empty before o ▸ hpause)
  rw [← pastAll_concat, hears_pastAll, ← hcont.listens, ← hcont.source, ← hcont.store,
    ← hcont.id] at hend
  simpa using hend

/-! ## Waiting for a stop -/

/-- Whether a lookup waits out its delay and listens to the source meanwhile. -/
def waitsOn (r : Registry) (source : Nat) (l : Lookup) : Bool :=
  l.outcome?.isNone && r.pauses[l.store]? == some .timed && l.listens && l.source == source

theorem waitsOn_eq {r : Registry} {l : Lookup} (h : r.Fit l) (source : Nat) :
    r.waitsOn source l = l.wakesOn source := by
  rw [Bool.eq_iff_iff, Lookup.wakesOn_iff]
  simp only [waitsOn, Bool.and_eq_true, Option.isNone_iff_eq_none, beq_iff_eq]
  constructor
  · rintro ⟨⟨⟨hpending, htimed⟩, hlistens⟩, hsource⟩
    exact ⟨h.phase_of_pending htimed hpending, hlistens, hsource⟩
  · rintro ⟨hphase, hlistens, hsource⟩
    exact ⟨⟨⟨Lookup.outcome?_of_sleeping hphase, (h.sleeping hphase).1⟩, hlistens⟩, hsource⟩

/-- **A stop cancels the lookups that wait on its source**, and leaves every other as it is. -/
theorem lookups_of_request? {r : Registry} (hr : r.Sound) {o : Occurrence} {source : Nat}
    (h : r.request? o = some source) :
    (r.past o).lookups = r.lookups.map fun l =>
      if r.waitsOn source l then { l with phase := .ended (.failed (Lookup.cancelled l.id)) }
      else l := by
  rw [(past_of_request? h).1]
  apply List.map_congr_left
  intro l hl
  rw [waitsOn_eq (hr l hl)]
  rfl

/-- It reports each of them, and nothing else. -/
theorem reported_of_request? {r : Registry} (hr : r.Sound) {o : Occurrence} {source : Nat}
    (h : r.request? o = some source) :
    r.reported o = (r.lookups.filter (r.waitsOn source)).map fun l => .lookupCancelled l.id := by
  rw [(past_of_request? h).2, List.filter_congr fun l hl => waitsOn_eq (hr l hl) source,
    List.map_eq_flatMap]
  rfl

theorem not_mem_requests_of_pending {os : List Occurrence} {l : Lookup}
    (hl : l ∈ (empty.pastAll os).lookups)
    (htimed : (empty.pastAll os).pauses[l.store]? = some .timed) (hpending : l.outcome? = none)
    (hlistens : l.listens = true) : l.source ∉ empty.requests os := by
  have hfit := sound_pastAll os l hl
  have hquiet := (hfit.sleeping (hfit.phase_of_pending htimed hpending)).2
  rw [hears_pastAll, hlistens] at hquiet
  simpa using hquiet

/-! ## Warnings -/

theorem cancellations_past (r : Registry) (o : Occurrence) (id : UInt64) :
    (r.past o).cancellations id =
      r.cancellations id + (r.reported o).count (.lookupCancelled id) := by
  cases o with
  | move m => exact cancellations_after r m id
  | request source => exact cancellations_requestStop r source id

theorem cancellations_pastAll (r : Registry) (os : List Occurrence) (id : UInt64) :
    (r.pastAll os).cancellations id =
      r.cancellations id + (r.allReported os).count (.lookupCancelled id) := by
  induction os generalizing r with
  | nil => rfl
  | cons o os ih =>
    rw [pastAll_cons, ih, cancellations_past, allReported_cons, List.count_append, Nat.add_assoc]

/-! ## Tokens -/

theorem listens_attach {r : Registry} {token : Lookup.Token} {a : Attachment}
    (h : r.attach token = .ok a) : a.listens = true ↔ token ≠ .none := by
  rcases attach_cases h with ⟨_, rfl⟩ | ⟨k, l, rfl, _, rfl⟩
  · exact decide_eq_true_iff
  · simp

/-- A start that is answered leaves, also when its delay is sat out, the lookup that it adds. -/
theorem launched_of_reply {r : Registry} {m : Move} {n : Int} {id : UInt64} {token : Lookup.Token}
    {handle : Nat} {call : Option Pause.Call}
    (hm : m = .start n id token ∨ m = .command (.lookup n id token))
    (h : r.replyTo? m = some (.started handle call)) :
    ∃ i s a l, n.toNat? = some i ∧ r.attach token = .ok a ∧
      (r.after m).lookups[handle]? = some l ∧ (launched a i s id).Continues l := by
  rcases hm with rfl | rfl
  · obtain ⟨i, s, a, hn, ha, hl⟩ := launched_of_start h
    exact ⟨i, s, a, _, hn, ha, hl, .refl _⟩
  · obtain ⟨i, s, a, hn, ha, hl⟩ := launched_of_start (replyTo?_start_of_lookup h)
    obtain ⟨l, hl', hcont⟩ := continues_lookup r n id token handle _ hl
    exact ⟨i, s, a, l, hn, ha, hl', hcont⟩

/-- A source that is not there yet is nobody's, and no stop has been requested on it. -/
theorem new_source {os : List Occurrence} :
    (empty.pastAll os).sources.length ∉ empty.requests os ∧
      ∀ l ∈ (empty.pastAll os).lookups, l.source ≠ (empty.pastAll os).sources.length := by
  constructor
  · intro hmem
    have hstopped : (empty.pastAll os).isStopped (empty.pastAll os).sources.length = true := by
      rw [isStopped_pastAll sound_empty]
      simp [hmem]
    exact Nat.lt_irrefl _ (lt_of_isStopped hstopped)
  · intro l hl
    exact Nat.ne_of_lt (sound_pastAll os l hl).source

/-! ## Whole runs -/

/-- **A lookup with a timed pause is cancelled if and only if a stop is requested on its own source
before its wait ends.** In every run, whatever its stores, lookups and sources,

* each lookup that is started is of the store and the id asked for, listens if it was given a token,
  and belongs to the source of the earlier lookup that the token names or else to a new one;
* each that has ended did so at one moment of the run, as cancelled if it listens and a stop was
  requested on its source up to that moment, and otherwise with what the directory then held;
* none is left waiting that listens to a source on which a stop was requested;
* a stop on a source cancels just the lookups that wait on it, and logs one warning with its own id
  for each of them;
* the log holds, for every id, as many warnings as lookups of the id were cancelled. -/
theorem cancelled_iff_stop_requested (os : List Occurrence) :
    (∀ before after (n : Int) id token handle call m,
      (m = .start n id token ∨ m = .command (.lookup n id token)) →
      os = before ++ .move m :: after →
      (empty.pastAll before).replyTo? m = some (.started handle call) →
        ∃ l, (empty.pastAll os).lookups[handle]? = some l ∧ l.id = id ∧ l.store = n ∧
          (l.listens = true ↔ token ≠ .none) ∧
          (∀ k, token = .shared k →
            ∃ l₀, under? (empty.pastAll before).lookups k = some l₀ ∧ l.source = l₀.source) ∧
          ((∀ k, token ≠ .shared k) → l.source ∉ empty.requests before ∧
            ∀ l₀ ∈ (empty.pastAll before).lookups, l₀.source ≠ l.source)) ∧
    (∀ handle l outcome, (empty.pastAll os).lookups[handle]? = some l →
      (empty.pastAll os).pauses[l.store]? = some .timed → l.outcome? = some outcome →
        ∃ before o after, os = before ++ o :: after ∧
          (empty.pastAll before).outcomeOf? handle = none ∧
          (empty.pastAll (before ++ [o])).outcomeOf? handle = some outcome ∧
          outcome =
            if l.listens = true ∧ l.source ∈ empty.requests (before ++ [o]) then
              .failed (Lookup.cancelled l.id)
            else .found (((empty.pastAll before).directory l.store).find? l.id)) ∧
    (∀ l ∈ (empty.pastAll os).lookups, (empty.pastAll os).pauses[l.store]? = some .timed →
      l.outcome? = none → l.listens = true → l.source ∉ empty.requests os) ∧
    (∀ before o after source, os = before ++ o :: after →
      (empty.pastAll before).request? o = some source →
        (empty.pastAll (before ++ [o])).lookups = (empty.pastAll before).lookups.map (fun l =>
          if (empty.pastAll before).waitsOn source l then
            { l with phase := .ended (.failed (Lookup.cancelled l.id)) }
          else l) ∧
        Log.Setup.initial.record ((empty.pastAll before).reported o) =
          ((empty.pastAll before).lookups.filter ((empty.pastAll before).waitsOn source)).map
            fun l => (Event.lookupCancelled l.id).message) ∧
    (∀ id, (Log.Setup.initial.record (empty.allReported os)).count
        (Event.lookupCancelled id).message =
      (empty.pastAll os).lookups.countP fun l =>
        l.id == id && l.outcome? == some (.failed (Lookup.cancelled l.id))) := by
  refine ⟨?_, ?_, ?_, ?_, ?_⟩
  · intro before after n id token handle call m hm hos hreply
    obtain ⟨i, s, a, l, hn, ha, hl, hcont⟩ := launched_of_reply hm hreply
    have hos' : empty.pastAll os = ((empty.pastAll before).after m).pastAll after := by
      rw [hos, pastAll_append]
      rfl
    obtain ⟨l', hl', hcont'⟩ := continues_pastAll _ after handle l hl
    have hlater := hcont.trans hcont'
    refine ⟨l', hos' ▸ hl', hlater.id, ?_, ?_, ?_, ?_⟩
    · rw [hlater.store]
      exact (Int.mem_toNat?.mp hn).symm
    · rw [hlater.listens]
      exact listens_attach ha
    · rintro k rfl
      rcases attach_cases ha with ⟨hnew, _⟩ | ⟨_, l₀, ⟨⟩, hl₀, rfl⟩
      · exact absurd rfl (hnew k)
      · exact ⟨l₀, hl₀, hlater.source⟩
    · intro hnew
      rcases attach_cases ha with ⟨_, rfl⟩ | ⟨k, _, rfl, _, _⟩
      · rw [hlater.source]
        exact new_source
      · exact absurd rfl (hnew k)
  · intro handle l outcome hl htimed ho
    have hsome : (empty.pastAll os).outcomeOf? handle = some outcome :=
      outcomeOf?_eq_some.mpr ⟨l, hl, ho⟩
    obtain ⟨before, o, after, rfl, hnone, hended⟩ := exists_end rfl hsome
    exact ⟨before, o, after, rfl, hnone, hended, outcome_of_end hl htimed hnone hended⟩
  · intro l hl htimed hpending hlistens
    exact not_mem_requests_of_pending hl htimed hpending hlistens
  · intro before o after source _ hrequest
    have hr := sound_pastAll before
    rw [pastAll_concat, Log.Setup.record_initial, reported_of_request? hr hrequest, List.map_map]
    exact ⟨lookups_of_request? hr hrequest, rfl⟩
  · intro id
    rw [Log.Setup.record_initial, Event.count_warning rfl]
    have hcount := cancellations_pastAll empty os id
    rw [show empty.cancellations id = 0 from rfl, Nat.zero_add] at hcount
    exact hcount.symm

/-- Two lookups in different stores share a source, a third has none, and a fourth joins the source
when the stop has already been requested. -/
def sharedStop : List Occurrence :=
  [ .move (.command (.openStore (some 0) .timed)),
    .move (.command (.openStore (some 5000) .timed)),
    .move (.command (.act (.store 1) (.put ⟨3, "Cleo", "cleo@x.com"⟩))),
    .move (.start 0 1 .live),
    .move (.start 1 2 (.shared 0)),
    .move (.start 1 3 .none),
    .request 0,
    .move (.start 0 4 (.shared 1)),
    .move (.elapse 2) ]

/-- The stop warns of the two that wait on the source, the fourth is cancelled without having
waited, and the third, which no stop reaches, finds whom it looks for when its delay has passed. -/
theorem cancelled_iff_stop_requested_shared :
    (empty.pastAll (sharedStop.take 6)).request? (.request 0) = some 0 ∧
    Log.Setup.initial.record ((empty.pastAll (sharedStop.take 6)).reported (.request 0)) =
      [(Event.lookupCancelled 1).message, (Event.lookupCancelled 2).message] ∧
    (Log.Setup.initial.record (empty.allReported sharedStop)).count
      (Event.lookupCancelled 4).message = 1 ∧
    ∃ before o after, sharedStop = before ++ o :: after ∧
      (empty.pastAll before).outcomeOf? 2 = none ∧
      (empty.pastAll (before ++ [o])).outcomeOf? 2 =
        some (.found (some ⟨3, "Cleo", "cleo@x.com"⟩)) := by
  have hrequest : (empty.pastAll (sharedStop.take 6)).request? (.request 0) = some 0 := by decide
  have hlookup : (empty.pastAll sharedStop).lookups[2]? =
      some ⟨1, 3, 1, false, .ended (.found (some ⟨3, "Cleo", "cleo@x.com"⟩))⟩ := by decide
  obtain ⟨_, hends, _, hstops, hwarnings⟩ := cancelled_iff_stop_requested sharedStop
  obtain ⟨before, o, after, hos, hnone, hended, _⟩ := hends 2 _ _ hlookup (by decide) rfl
  refine ⟨hrequest, ?_, (hwarnings 4).trans (by decide), before, o, after, hos, hnone, hended⟩
  rw [(hstops (sharedStop.take 6) (.request 0) (sharedStop.drop 7) 0 rfl hrequest).2]
  decide

end Roster.Registry
