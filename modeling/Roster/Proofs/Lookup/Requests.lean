import Roster.Proofs.Lookup.Outcome

/-!
# Stop sources in a run

A stop source is in the hands of whoever made it, who may request a stop on it at any moment and as
often as he likes, also when every lookup that listens to it has ended and been collected. So a run
here is a list of `Occurrence`s: the moves of the registry, and stops requested on a source from
outside.

* `requests` are the sources on which a run requests a stop. A source is stopped when it is among
  them and not otherwise (`isStopped_pastAll`).
* `Sound` is what every run keeps (`leads_pastAll`): a lookup sleeps only where the pause is timed,
  and only as long as it has not heard a stop.
-/

namespace Roster

theorem Pause.respond_eq_sleeps {p : Pause} {earlier : Nat} {stopped : Bool}
    (h : p.respond earlier stopped = .sleeps) : p = .timed ∧ stopped = false := by
  cases p <;> cases stopped <;> simp_all [respond]

theorem Pause.respond_eq_blocks {p : Pause} {earlier : Nat} {stopped : Bool}
    (h : p.respond earlier stopped = .blocks) : p = .gated := by
  cases p <;> cases stopped <;> simp_all [respond]

/-- A timed pause ends at its call only if it was stopped before. -/
theorem Pause.verdict_of_timed {earlier : Nat} {stopped : Bool} {v : Verdict}
    (h : timed.respond earlier stopped = .ends v) : v = .ofCompletes (!stopped) := by
  cases stopped with
  | true =>
    cases h
    rfl
  | false => cases h

theorem Lookup.phaseAfter_eq_sleeping {d : Directory} {id : UInt64} {response : Pause.Response}
    (h : phaseAfter d id response = .sleeping) : response = .sleeps := by
  cases response <;> simp_all [phaseAfter]

theorem Lookup.phaseAfter_eq_gated {d : Directory} {id : UInt64} {response : Pause.Response}
    (h : phaseAfter d id response = .gated) : response = .blocks := by
  cases response <;> simp_all [phaseAfter]

namespace Registry

open Log (Event)

/-! ## Occurrences -/

/-- Something that happens to a registry. -/
inductive Occurrence where
  | move (m : Move)
  /-- A stop is requested on a source by someone who holds it. -/
  | request (source : Nat)
deriving DecidableEq

def past (r : Registry) : Occurrence → Registry
  | .move m => r.after m
  | .request source => (r.requestStop source).1

def reported (r : Registry) : Occurrence → List Event
  | .move m => r.eventsOf m
  | .request source => (r.requestStop source).2

def pastAll (r : Registry) : List Occurrence → Registry
  | [] => r
  | o :: os => (r.past o).pastAll os

def allReported (r : Registry) : List Occurrence → List Event
  | [] => []
  | o :: os => r.reported o ++ (r.past o).allReported os

@[simp] theorem pastAll_nil (r : Registry) : r.pastAll [] = r := rfl

@[simp] theorem pastAll_cons (r : Registry) (o : Occurrence) (os : List Occurrence) :
    r.pastAll (o :: os) = (r.past o).pastAll os := rfl

@[simp] theorem allReported_nil (r : Registry) : r.allReported [] = [] := rfl

@[simp] theorem allReported_cons (r : Registry) (o : Occurrence) (os : List Occurrence) :
    r.allReported (o :: os) = r.reported o ++ (r.past o).allReported os := rfl

theorem pastAll_append (r : Registry) (xs ys : List Occurrence) :
    r.pastAll (xs ++ ys) = (r.pastAll xs).pastAll ys := by
  induction xs generalizing r with
  | nil => rfl
  | cons x xs ih => exact ih (r.past x)

theorem pastAll_concat (r : Registry) (os : List Occurrence) (o : Occurrence) :
    r.pastAll (os ++ [o]) = (r.pastAll os).past o := pastAll_append r os [o]

theorem continues_past (r : Registry) (o : Occurrence) : r.Continues (r.past o) := by
  cases o with
  | move m => exact continues_after r m
  | request source => exact continues_requestStop r source

theorem continues_pastAll (r : Registry) (os : List Occurrence) : r.Continues (r.pastAll os) := by
  induction os generalizing r with
  | nil => exact .of_lookups_eq rfl
  | cons o os ih => exact (continues_past r o).trans (ih (r.past o))

/-! ## Requests -/

/-- The source on which an occurrence requests a stop, directly or through a lookup. -/
def request? (r : Registry) : Occurrence → Option Nat
  | .request source => if source < r.sources.length then some source else none
  | .move (.command (.stop n)) =>
    (r.reply (.stop n)).toOption.bind fun _ => (under? r.lookups n).map Lookup.source
  | .move _ => none

/-- The source that an occurrence adds with a stop requested on it already. -/
def preset? (r : Registry) : Occurrence → Option Nat
  | .move (.start n id .stopped) | .move (.command (.lookup n id .stopped)) =>
    (r.start? n id .stopped).map fun _ => r.sources.length
  | _ => none

def requests (r : Registry) : List Occurrence → List Nat
  | [] => []
  | o :: os => (r.request? o).toList ++ (r.preset? o).toList ++ (r.past o).requests os

@[simp] theorem requests_nil (r : Registry) : r.requests [] = [] := rfl

@[simp] theorem requests_cons (r : Registry) (o : Occurrence) (os : List Occurrence) :
    r.requests (o :: os) =
      (r.request? o).toList ++ (r.preset? o).toList ++ (r.past o).requests os := rfl

theorem request?_stop {r : Registry} {n : Int} {i : Nat} {l : Lookup} (hn : n.toNat? = some i)
    (hl : r.openLookup i = .ok l) (hlistens : l.listens = true) :
    r.request? (.move (.command (.stop n))) = some l.source := by
  have hunder : under? r.lookups n = some l := by
    rw [under?, hn]
    exact (openLookup_eq_ok_iff.mp hl).1
  rw [request?, reply_of_perform (perform_stop hn hl hlistens), hunder]
  rfl

/-- A stop that is requested on a source is one of two things, and both do the same. -/
theorem past_of_request? {r : Registry} {o : Occurrence} {source : Nat}
    (h : r.request? o = some source) :
    r.past o = (r.requestStop source).1 ∧ r.reported o = (r.requestStop source).2 := by
  cases o with
  | request k =>
    rw [request?] at h
    split at h
    · cases h
      exact ⟨rfl, rfl⟩
    · cases h
  | move m =>
    cases m with
    | command c =>
      cases c with
      | stop n =>
        cases hperf : r.perform (.stop n) with
        | error f =>
          rw [request?, reply_of_refused hperf] at h
          cases h
        | ok e =>
          cases performed_of_perform hperf with
          | stopped hn hl hlistens =>
            cases (request?_stop hn hl hlistens).symm.trans h
            exact ⟨next_of_perform hperf, events_of_perform hperf⟩
      | _ => cases h
    | start _ _ _ => cases h
    | elapse _ => cases h

/-! ## Which sources are stopped -/

theorem isStopped_congr {r r' : Registry} (h : r'.sources = r.sources) (source : Nat) :
    r'.isStopped source = r.isStopped source := by
  rw [isStopped, isStopped, h]

theorem lt_of_isStopped {r : Registry} {source : Nat} (h : r.isStopped source = true) :
    source < r.sources.length := by
  rcases Nat.lt_or_ge source r.sources.length with hlen | hlen
  · exact hlen
  · rw [isStopped, List.getElem?_eq_none hlen] at h
    cases h

theorem isStopped_requestStop (r : Registry) (k source : Nat) :
    (r.requestStop k).1.isStopped source =
      (r.isStopped source || decide (k < r.sources.length ∧ k = source)) := by
  show ((r.sources.set k true)[source]?).getD false = _
  rw [List.getElem?_set, isStopped]
  by_cases hk : k = source
  · subst hk
    by_cases hlen : k < r.sources.length <;> simp [hlen]
  · simp [hk]

theorem isStopped_addSource (r : Registry) (stopped : Bool) (source : Nat) :
    (r.addSource stopped).isStopped source =
      (r.isStopped source || (stopped && decide (r.sources.length = source))) := by
  show ((r.sources ++ [stopped])[source]?).getD false = _
  rw [List.getElem?_append, isStopped]
  by_cases hlen : source < r.sources.length
  · simp [hlen, Nat.ne_of_gt hlen]
  · rw [if_neg hlen, List.getElem?_eq_none (Nat.le_of_not_lt hlen)]
    by_cases hlast : r.sources.length = source
    · simp [hlast]
    · have hpast : source - r.sources.length ≠ 0 := by omega
      simp [hlast, hpast]

theorem isStopped_attach {r : Registry} {token : Lookup.Token} {a : Attachment}
    (h : r.attach token = .ok a) (source : Nat) :
    a.registry.isStopped source =
      (r.isStopped source || decide (token = .stopped ∧ r.sources.length = source)) := by
  rcases attach_cases h with ⟨_, rfl⟩ | ⟨k, l, rfl, _, rfl⟩
  · rw [isStopped_addSource, ← Bool.decide_and]
  · simp

@[simp] theorem sources_elapse (r : Registry) (handle : Nat) :
    (r.elapse handle).1.sources = r.sources := by
  unfold elapse
  split
  · rfl
  · split <;> rfl

theorem isStopped_start (r : Registry) (n : Int) (id : UInt64) (token : Lookup.Token)
    (source : Nat) :
    (r.after (.start n id token)).isStopped source =
      (r.isStopped source || decide (r.preset? (.move (.start n id token)) = some source)) := by
  rw [after]
  cases hstart : r.start? n id token with
  | none =>
    have hpreset : r.preset? (.move (.start n id token)) = none := by
      cases token <;> simp [preset?, hstart]
    simp [hpreset]
  | some e =>
    obtain ⟨i, s, a, _, _, ha, rfl⟩ := attach_of_start? hstart
    have hpreset : r.preset? (.move (.start n id token)) =
        if token = .stopped then some r.sources.length else none := by
      cases token <;> simp [preset?, hstart]
    rw [Option.elim_some, show (launch a i s id).registry.isStopped source = _ from
      isStopped_attach ha source, hpreset]
    by_cases htoken : token = .stopped <;> simp [htoken]

theorem sources_lookup (r : Registry) (n : Int) (id : UInt64) (token : Lookup.Token) :
    (r.after (.command (.lookup n id token))).sources =
      (r.after (.start n id token)).sources := by
  rw [after_lookup_eq]
  split
  · exact sources_elapse _ _
  · rfl

/-- Stops and lookups apart, no command has to do with a source. -/
theorem sources_next {r : Registry} {c : Command} (hstop : ∀ n, c ≠ .stop n)
    (hlookup : ∀ n id token, c ≠ .lookup n id token) : (r.next c).sources = r.sources := by
  cases hperf : r.perform c with
  | error f => rw [next_of_refused hperf]
  | ok e =>
    rw [next_of_perform hperf]
    cases performed_of_perform hperf with
    | opened _ => rfl
    | appointed _ _ => rfl
    | acted _ _ => rfl
    | launched _ _ _ _ => exact absurd rfl (hlookup _ _ _)
    | satOut _ _ _ _ => exact absurd rfl (hlookup _ _ _)
    | stopped _ _ _ => exact absurd rfl (hstop _)
    | released _ _ _ => rfl
    | collected _ _ _ => rfl

/-- **A source is stopped by a request on it and not otherwise.** -/
theorem isStopped_past {r : Registry} (hr : ∀ l ∈ r.lookups, l.source < r.sources.length)
    (o : Occurrence) (source : Nat) :
    (r.past o).isStopped source = (r.isStopped source
      || (decide (r.request? o = some source) || decide (r.preset? o = some source))) := by
  cases o with
  | request k =>
    rw [past, isStopped_requestStop]
    by_cases hk : k < r.sources.length <;> simp [request?, preset?, hk]
  | move m =>
    cases m with
    | start n id token =>
      rw [past, isStopped_start]
      simp [request?]
    | elapse handle =>
      rw [past, after, isStopped_congr (sources_elapse r handle)]
      simp [request?, preset?]
    | command c =>
      cases c with
      | lookup n id token =>
        have hpreset : r.preset? (.move (.command (.lookup n id token))) =
            r.preset? (.move (.start n id token)) := by
          cases token <;> rfl
        rw [past, isStopped_congr (sources_lookup r n id token), isStopped_start, hpreset]
        simp [request?]
      | stop n =>
        show (r.next _).isStopped source = _
        cases hperf : r.perform (.stop n) with
        | error f =>
          rw [next_of_refused hperf, request?, reply_of_refused hperf]
          simp [preset?, Except.toOption]
        | ok e =>
          cases performed_of_perform hperf with
          | stopped hn hl hlistens =>
            -- The source of a lookup is there, so that the request is not lost.
            have hlen := hr _ (List.mem_of_getElem? ((openLookup_eq_ok_iff.mp hl).1))
            rw [next_of_perform hperf, request?_stop hn hl hlistens, isStopped_requestStop]
            simp [preset?, hlen]
      | _ =>
        rw [past, after, isStopped_congr (sources_next (by simp) (by simp))]
        simp [request?, preset?]

/-! ## What a run keeps -/

/-- How the lookups of each store wait. -/
def pauses (r : Registry) : List Pause := r.stores.map Store.pause

/-- A lookup as it can stand in a registry. -/
structure Fit (r : Registry) (l : Lookup) : Prop where
  store : l.store < r.pauses.length
  source : l.source < r.sources.length
  /-- Only a timed pause sleeps, and only until it hears a stop. -/
  sleeping : l.phase = .sleeping → r.pauses[l.store]? = some .timed ∧ r.hears l = false
  gated : l.phase = .gated → r.pauses[l.store]? = some .gated

def Sound (r : Registry) : Prop := ∀ l ∈ r.lookups, r.Fit l

/-- What leads from one registry to a later one: no pause is changed, and the lookups stay as they
can stand. -/
structure Leads (r r' : Registry) : Prop where
  pauses : r.pauses <+: r'.pauses
  sound : r.Sound → r'.Sound

theorem Leads.refl (r : Registry) : r.Leads r := ⟨List.prefix_rfl, id⟩

theorem Leads.trans {r r' r'' : Registry} (h : r.Leads r') (h' : r'.Leads r'') : r.Leads r'' :=
  ⟨h.pauses.trans h'.pauses, h'.sound ∘ h.sound⟩

theorem Fit.pause_eq {r r' : Registry} {l : Lookup} (h : r.Fit l) (hp : r.pauses <+: r'.pauses) :
    r'.pauses[l.store]? = r.pauses[l.store]? := by
  obtain ⟨ps, hps⟩ := hp
  rw [← hps, List.getElem?_append_left h.store]

/-- A lookup stands as well where no pause is changed and it hears no more, if it sleeps. -/
theorem Fit.mono {r r' : Registry} {l : Lookup} (h : r.Fit l) (hp : r.pauses <+: r'.pauses)
    (hlen : r.sources.length ≤ r'.sources.length)
    (hhears : l.phase = .sleeping → r'.hears l = r.hears l) : r'.Fit l where
  store := Nat.lt_of_lt_of_le h.store hp.length_le
  source := Nat.lt_of_lt_of_le h.source hlen
  sleeping hphase := ⟨(h.pause_eq hp).trans (h.sleeping hphase).1,
    (hhears hphase).trans (h.sleeping hphase).2⟩
  gated hphase := (h.pause_eq hp).trans (h.gated hphase)

/-- Once a lookup has an outcome, all that counts is where it belongs. -/
theorem Fit.of_outcome {r : Registry} {l l' : Lookup} (h : r.Fit l) (hcont : l.Continues l')
    (ho : l'.outcome? ≠ none) : r.Fit l' where
  store := hcont.store ▸ h.store
  source := hcont.source ▸ h.source
  sleeping hphase := absurd (Lookup.outcome?_of_sleeping hphase) ho
  gated hphase := absurd (Lookup.outcome?_of_gated hphase) ho

theorem outcome?_conclude_ne_none (r : Registry) (l : Lookup) (v : Pause.Verdict) :
    (r.conclude l v).outcome? ≠ none := by
  simp [outcome?_conclude]

/-- A lookup with a timed pause and no outcome sleeps. -/
theorem Fit.phase_of_pending {r : Registry} {l : Lookup} (h : r.Fit l)
    (htimed : r.pauses[l.store]? = some .timed) (hpending : l.outcome? = none) :
    l.phase = .sleeping := by
  cases hphase : l.phase with
  | sleeping => rfl
  | gated =>
    rw [h.gated hphase] at htimed
    cases htimed
  | ended o =>
    rw [Lookup.outcome?_of_ended hphase] at hpending
    cases hpending
  | collected o =>
    rw [Lookup.outcome?_eq_some_iff.mpr (.inr hphase)] at hpending
    cases hpending

theorem leads_of_stores {r r' : Registry} (hp : r.pauses <+: r'.pauses)
    (hlookups : r'.lookups = r.lookups) (hsources : r'.sources = r.sources) : r.Leads r' where
  pauses := hp
  sound hr l hl := by
    have hhears : r'.hears l = r.hears l := by rw [hears, hears, isStopped_congr hsources]
    exact (hr l (hlookups ▸ hl)).mono hp (Nat.le_of_eq (by rw [hsources])) fun _ => hhears

theorem leads_setLookup {r : Registry} {i : Nat} {l l' : Lookup} (hl : r.lookups[i]? = some l)
    (hcont : l.Continues l') (ho : l'.outcome? ≠ none) : r.Leads (r.setLookup i l') where
  pauses := List.prefix_rfl
  sound hr k hk := by
    have hfit : r.Fit k := by
      rcases List.mem_or_eq_of_mem_set hk with hold | rfl
      · exact hr k hold
      · exact (hr l (List.mem_of_getElem? hl)).of_outcome hcont ho
    exact hfit.mono List.prefix_rfl (Nat.le_refl _) fun _ => rfl

theorem leads_conclude {r : Registry} {i : Nat} {l : Lookup} (hl : r.lookups[i]? = some l)
    (hpending : l.outcome? = none) (v : Pause.Verdict) :
    r.Leads (r.setLookup i (r.conclude l v)) :=
  leads_setLookup hl (continues_conclude r hpending v) (outcome?_conclude_ne_none r l v)

theorem leads_elapse (r : Registry) (handle : Nat) : r.Leads (r.elapse handle).1 := by
  cases hl : r.lookups[handle]? with
  | none =>
    rw [elapse_of_none hl]
    exact .refl r
  | some l =>
    by_cases hsleeping : l.phase = .sleeping
    · rw [elapse_of_sleeping hl hsleeping]
      exact leads_conclude hl (Lookup.outcome?_of_sleeping hsleeping) _
    · rw [elapse_of_not_sleeping hl hsleeping]
      exact .refl r

/-- A stop leaves no lookup asleep that hears it. -/
theorem leads_requestStop (r : Registry) (source : Nat) : r.Leads (r.requestStop source).1 where
  pauses := List.prefix_rfl
  sound hr k hk := by
    obtain ⟨l, hl, rfl⟩ := List.mem_map.mp hk
    have hlen : r.sources.length ≤ (r.requestStop source).1.sources.length := by
      simp [requestStop]
    split
    · next hwakes =>
      have hpending := Lookup.outcome?_of_sleeping (Lookup.wakesOn_iff.mp hwakes).1
      have hfit : r.Fit (r.conclude l .interrupted) :=
        (hr l hl).of_outcome (continues_conclude r hpending _) (outcome?_conclude_ne_none r l _)
      exact hfit.mono List.prefix_rfl hlen fun hphase => by cases hphase
    · next hwakes =>
      -- A sleeper that is not woken listens to another source, or to none.
      refine (hr l hl).mono List.prefix_rfl hlen fun hphase => ?_
      rw [Lookup.wakesOn_iff] at hwakes
      rw [hears, hears, isStopped_requestStop]
      by_cases hlistens : l.listens = true
      · have hother : source ≠ l.source := fun h => hwakes ⟨hphase, hlistens, h.symm⟩
        simp [hother]
      · simp [hlistens]

theorem pauses_modify (r : Registry) (n : Nat) {f : Store → Store}
    (hf : ∀ s, (f s).pause = s.pause) :
    ({ r with stores := r.stores.modify n f } : Registry).pauses = r.pauses := by
  apply List.ext_getElem?
  intro k
  simp only [pauses, List.getElem?_map, List.getElem?_modify]
  cases r.stores[k]? with
  | none => simp
  | some s => by_cases hk : n = k <;> simp [hk, hf]

theorem pauses_launch {r : Registry} {token : Lookup.Token} {a : Attachment}
    (ha : r.attach token = .ok a) (i : Nat) (s : Store) (id : UInt64) :
    (launch a i s id).registry.pauses = r.pauses := by
  have hstores : r.pauses = a.registry.pauses := by rw [pauses, pauses, stores_attach ha]
  rw [hstores]
  exact pauses_modify a.registry i fun _ => rfl

theorem mem_of_under? {α : Type} {xs : List α} {n : Int} {x : α} (h : under? xs n = some x) :
    x ∈ xs := by
  obtain ⟨i, _, hi⟩ := Option.bind_eq_some_iff.mp h
  exact List.mem_of_getElem? hi

/-- The source that a token comes to is there, and none is taken away. -/
theorem source_lt_of_attach {r : Registry} {token : Lookup.Token} {a : Attachment}
    (hr : r.Sound) (h : r.attach token = .ok a) :
    a.source < a.registry.sources.length ∧ r.sources.length ≤ a.registry.sources.length := by
  rcases attach_cases h with ⟨_, rfl⟩ | ⟨k, l, rfl, hl, rfl⟩
  · simp [addSource]
  · exact ⟨(hr l (mem_of_under? hl)).source, Nat.le_refl _⟩

theorem fit_launched {r : Registry} {token : Lookup.Token} {a : Attachment} {i : Nat} {s : Store}
    (hr : r.Sound) (hs : r.stores[i]? = some s) (ha : r.attach token = .ok a) (id : UInt64) :
    (launch a i s id).registry.Fit (launched a i s id) := by
  have hpause : (launch a i s id).registry.pauses[i]? = some s.pause := by
    rw [pauses_launch ha, pauses, List.getElem?_map, hs, Option.map_some]
  constructor
  case store => exact (List.getElem?_eq_some_iff.mp hpause).1
  case source => exact (source_lt_of_attach hr ha).1
  case sleeping =>
    intro hphase
    obtain ⟨htimed, hquiet⟩ := Pause.respond_eq_sleeps (Lookup.phaseAfter_eq_sleeping hphase)
    exact ⟨hpause.trans (congrArg some htimed), hquiet⟩
  case gated =>
    intro hphase
    exact hpause.trans (congrArg some (Pause.respond_eq_blocks (Lookup.phaseAfter_eq_gated hphase)))

theorem leads_launch {r : Registry} {token : Lookup.Token} {a : Attachment} {i : Nat} {s : Store}
    (hs : r.stores[i]? = some s) (ha : r.attach token = .ok a) (id : UInt64) :
    r.Leads (launch a i s id).registry where
  pauses := (pauses_launch ha i s id).symm ▸ List.prefix_rfl
  sound hr k hk := by
    rw [lookups_launch ha, List.mem_append, List.mem_singleton] at hk
    rcases hk with hold | rfl
    · -- A source that is added is none of those that lookups had before.
      have hfit := hr k hold
      refine hfit.mono (pauses_launch ha i s id ▸ List.prefix_rfl) (source_lt_of_attach hr ha).2
        fun _ => ?_
      rw [hears, hears, show (launch a i s id).registry.isStopped k.source = _ from
        isStopped_attach ha k.source]
      simp [Nat.ne_of_gt hfit.source]
    · exact fit_launched hr hs ha id

theorem leads_after (r : Registry) (m : Move) : r.Leads (r.after m) := by
  cases m with
  | elapse handle => exact leads_elapse r handle
  | start n id token =>
    rw [after]
    cases hstart : r.start? n id token with
    | none => exact .refl r
    | some e =>
      obtain ⟨i, s, a, _, hs, ha, rfl⟩ := attach_of_start? hstart
      exact leads_launch hs ha id
  | command c =>
    show r.Leads (r.next c)
    cases hperf : r.perform c with
    | error f =>
      rw [next_of_refused hperf]
      exact .refl r
    | ok e =>
      rw [next_of_perform hperf]
      cases performed_of_perform hperf with
      | opened _ =>
        refine leads_of_stores ?_ rfl rfl
        simp [pauses]
      | appointed _ _ => exact leads_of_stores List.prefix_rfl rfl rfl
      | @acted _ a n _ _ _ =>
        have hpauses := pauses_modify r n (f := (·.act a)) fun _ => rfl
        exact leads_of_stores (hpauses ▸ List.prefix_rfl) rfl rfl
      | launched _ hs ha _ => exact leads_launch hs ha _
      | satOut _ hs ha _ => exact (leads_launch hs ha _).trans (leads_elapse _ _)
      | stopped _ _ _ => exact leads_requestStop r _
      | released _ hl hgated => exact leads_conclude hl (Lookup.outcome?_of_gated hgated) _
      | collected _ hl hended =>
        refine leads_setLookup hl ⟨rfl, rfl, rfl, rfl, fun o ho => ?_⟩ (by simp [Lookup.outcome?])
        rw [Lookup.outcome?_of_ended hended] at ho
        exact ho

theorem leads_past (r : Registry) (o : Occurrence) : r.Leads (r.past o) := by
  cases o with
  | move m => exact leads_after r m
  | request source => exact leads_requestStop r source

/-- **Every run keeps it.** -/
theorem leads_pastAll (r : Registry) (os : List Occurrence) : r.Leads (r.pastAll os) := by
  induction os generalizing r with
  | nil => exact .refl r
  | cons o os ih => exact (leads_past r o).trans (ih (r.past o))

theorem sound_empty : empty.Sound := fun _ h => by cases h

theorem sound_pastAll (os : List Occurrence) : (empty.pastAll os).Sound :=
  (leads_pastAll empty os).sound sound_empty

/-- **A source is stopped if and only if the run has requested a stop on it.** -/
theorem isStopped_pastAll {r : Registry} (hr : r.Sound) (os : List Occurrence) (source : Nat) :
    (r.pastAll os).isStopped source =
      (r.isStopped source || decide (source ∈ r.requests os)) := by
  induction os generalizing r with
  | nil => simp
  | cons o os ih =>
    rw [pastAll_cons, ih ((leads_past r o).sound hr), isStopped_past fun l hl => (hr l hl).source,
      requests_cons, Bool.eq_iff_iff]
    simp [or_assoc]

end Registry

end Roster
