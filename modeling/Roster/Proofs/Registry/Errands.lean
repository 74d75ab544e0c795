import Roster.Proofs.Attempt
import Roster.Registry.Command

/-!
# What commands come to

* `clean_carryOut`: every command makes all its checks before it changes or reports anything. So one
  that breaks off leaves the registry as it was.
* `perform` is the effect of a command that is carried out, or why it is not. `Performed` lists the
  ways in which a command is carried out, with all that each leaves, answers and reports;
  `performed_of_perform` is the one place where the commands are opened.
-/

namespace Roster.Registry

open Attempt (allow Looks Sure Clean)
open Errand (look change tell undergo need demand)
open Log (Event)

/-! ## Checks before changes -/

namespace Errand

variable {α : Type}

theorem looks_look : Looks look := fun _ => rfl

theorem looks_need (x : Option α) (missing : Refusal) : Looks (need x missing) :=
  Attempt.looks_need x _

theorem looks_demand (p : Prop) [Decidable p] (otherwise : Refusal) : Looks (demand p otherwise) :=
  Attempt.looks_demand p _

theorem sure_look : Sure look := fun _ => ⟨_, rfl⟩

theorem sure_change (f : Registry → Registry) : Sure (change f) := Attempt.sure_modify _

theorem sure_tell (events : List Event) : Sure (tell events) := Attempt.sure_modify _

theorem sure_undergo (f : Registry → Registry × List Event) : Sure (undergo f) :=
  Attempt.sure_modify _

end Errand

open Attempt (looks_allow sure_pure)
open Errand

theorem sure_newSource (stopped : Bool) : Sure (newSource stopped) :=
  sure_look.bind fun _ => (sure_change _).bind fun _ => sure_pure _

/-- A new source is there for the asking, and that of an earlier lookup is only looked at. -/
theorem clean_takeSource (token : Lookup.Token) : Clean (takeSource token) := by
  cases token with
  | none => exact ((sure_newSource _).bind fun _ => sure_pure _).clean
  | live => exact ((sure_newSource _).bind fun _ => sure_pure _).clean
  | stopped => exact ((sure_newSource _).bind fun _ => sure_pure _).clean
  | shared handle =>
    exact looks_look.bind fun _ => (looks_need _ _).bind fun _ => (sure_pure _).clean

theorem sure_sendOff (n : Nat) (s : Store) (id : UInt64) (source : Nat) (listens : Bool) :
    Sure (sendOff n s id source listens) := by
  refine (sure_tell _).bind fun _ => sure_look.bind fun r => ?_
  have hcall : Sure (callPause n s (listens && r.isStopped source)) :=
    (sure_change _).bind fun _ => sure_pure _
  have henter (l : Lookup) : Sure (enter l) :=
    sure_look.bind fun _ => (sure_change _).bind fun _ => sure_pure _
  exact hcall.bind fun _ => (sure_tell _).bind fun _ => (henter _).bind fun _ => sure_pure _

/-- The pause is called, and the lookup entered, only when nothing can be refused any more. -/
theorem clean_start (n : Int) (id : UInt64) (token : Lookup.Token) : Clean (start n id token) :=
  looks_look.bind fun _ => (looks_need _ _).bind fun _ => (looks_need _ _).bind fun _ =>
    (clean_takeSource token).bind fun _ => sure_sendOff _ _ _ _ _

theorem clean_lookup (n : Int) (id : UInt64) (token : Lookup.Token) :
    Clean (lookup n id token) := by
  -- What is sat out after the start cannot fail, so only the start has to be clean.
  refine looks_look.bind fun r => (clean_start n id token).bind fun _ => ?_
  split
  · exact (sure_undergo _).bind fun _ => sure_pure _
  · exact sure_pure _

/-- **No command changes or reports anything before it breaks off.** -/
theorem clean_carryOut (c : Command) : Clean (carryOut c) := by
  cases c with
  | openStore delay pause =>
    exact (looks_allow _ _).bind fun _ => looks_look.bind fun _ =>
      ((sure_change _).bind fun _ => sure_pure _).clean
  | appoint n =>
    exact (looks_need _ _).bind fun _ => looks_look.bind fun _ => (looks_demand _ _).bind fun _ =>
      ((sure_change _).bind fun _ => sure_pure _).clean
  | act t a =>
    exact looks_look.bind fun _ => (looks_need _ _).bind fun _ => (looks_need _ _).bind fun _ =>
      ((sure_change _).bind fun _ => (sure_tell _).bind fun _ => sure_pure _).clean
  | lookup n id token => exact clean_lookup n id token
  | stop handle =>
    exact (looks_need _ _).bind fun _ => looks_look.bind fun _ => (looks_allow _ _).bind fun _ =>
      (looks_demand _ _).bind fun _ => ((sure_undergo _).bind fun _ => sure_pure _).clean
  | release handle how =>
    exact (looks_need _ _).bind fun _ => looks_look.bind fun _ => (looks_allow _ _).bind fun _ =>
      (looks_demand _ _).bind fun _ =>
        ((sure_change _).bind fun _ => (sure_tell _).bind fun _ => sure_pure _).clean
  | collect handle =>
    exact (looks_need _ _).bind fun _ => looks_look.bind fun _ => (looks_allow _ _).bind fun _ =>
      (looks_need _ _).bind fun _ => ((sure_change _).bind fun _ => sure_pure _).clean

/-! ## Effects -/

/-- What an errand that is carried out leaves, answers and reports. -/
structure Effect where
  registry : Registry
  reply : Reply
  events : List Event

def Errand.effect (x : Errand Reply) (r : Registry) : Except Fault Effect :=
  match x.on ⟨r, []⟩ with
  | (.ok reply, d) => .ok ⟨d.registry, reply, d.reported⟩
  | (.error f, _) => .error f

def perform (r : Registry) (c : Command) : Except Fault Effect := (carryOut c).effect r

section
variable {x : Errand Reply} {r : Registry} {e : Effect} {f : Fault}

theorem Errand.effect_eq_ok_iff :
    x.effect r = .ok e ↔ x.on ⟨r, []⟩ = (.ok e.reply, ⟨e.registry, e.events⟩) := by
  unfold effect
  split
  · next reply d hon =>
    rw [hon]
    constructor
    · intro h
      cases h
      rfl
    · intro h
      cases h
      rfl
  · next f d hon => simp [hon]

theorem Errand.effect_eq_error_iff : x.effect r = .error f ↔ (x.on ⟨r, []⟩).1 = .error f := by
  unfold effect
  split <;> simp [*]

variable {c : Command}

theorem next_of_perform (h : r.perform c = .ok e) : r.next c = e.registry := by
  rw [next, effect_eq_ok_iff.mp h]

theorem reply_of_perform (h : r.perform c = .ok e) : r.reply c = .ok e.reply := by
  rw [reply, effect_eq_ok_iff.mp h]

theorem events_of_perform (h : r.perform c = .ok e) : r.events c = e.events := by
  rw [events, effect_eq_ok_iff.mp h]

theorem reply_of_refused (h : r.perform c = .error f) : r.reply c = .error f :=
  effect_eq_error_iff.mp h

/-- What a command that breaks off leaves behind is the desk as it was at the start. -/
theorem on_carryOut_of_refused (h : r.perform c = .error f) :
    ((carryOut c).on ⟨r, []⟩).2 = ⟨r, []⟩ :=
  clean_carryOut c _ f (effect_eq_error_iff.mp h)

theorem next_of_refused (h : r.perform c = .error f) : r.next c = r := by
  rw [next, on_carryOut_of_refused h]

theorem events_of_refused (h : r.perform c = .error f) : r.events c = [] := by
  rw [events, on_carryOut_of_refused h]

end

/-! ## The start of a lookup -/

/-- What a token comes to: the registry with the source in it, the number of the source and
whether the lookup listens to it. -/
structure Attachment where
  registry : Registry
  source : Nat
  listens : Bool

def attach (r : Registry) (token : Lookup.Token) : Except Fault Attachment :=
  match (takeSource token).on ⟨r, []⟩ with
  | (.ok (source, listens), d) => .ok ⟨d.registry, source, listens⟩
  | (.error f, _) => .error f

/-- A token comes to a new source, unless it names that of an earlier lookup. -/
theorem attach_cases {r : Registry} {token : Lookup.Token} {a : Attachment}
    (h : r.attach token = .ok a) :
    ((∀ k, token ≠ .shared k) ∧ a = ⟨r.addSource (decide (token = .stopped)), r.sources.length,
      decide (token ≠ .none)⟩) ∨
    ∃ k l, token = .shared k ∧ under? r.lookups k = some l ∧ a = ⟨r, l.source, true⟩ := by
  cases token with
  | none =>
    cases h
    exact .inl ⟨by simp, rfl⟩
  | live =>
    cases h
    exact .inl ⟨by simp, rfl⟩
  | stopped =>
    cases h
    exact .inl ⟨by simp, rfl⟩
  | shared k =>
    cases hl : under? r.lookups k with
    | none => simp [attach, takeSource, hl] at h
    | some l =>
      refine .inr ⟨k, l, rfl, hl, ?_⟩
      simpa [attach, takeSource, hl] using h.symm

theorem on_takeSource_of_attach {r : Registry} {token : Lookup.Token} {a : Attachment}
    (h : r.attach token = .ok a) :
    (takeSource token).on ⟨r, []⟩ = (.ok (a.source, a.listens), ⟨a.registry, []⟩) := by
  rcases attach_cases h with ⟨hnew, rfl⟩ | ⟨k, l, rfl, hl, rfl⟩
  · cases token with
    | shared k => exact absurd rfl (hnew k)
    | _ => rfl
  · simp [takeSource, hl]

/-- The effect of sending a lookup off from where its source was found. -/
def launch (a : Attachment) (n : Nat) (s : Store) (id : UInt64) : Effect :=
  let r := a.registry
  let stopped := a.listens && r.isStopped a.source
  let response := s.response stopped
  let lookup : Lookup := ⟨n, id, a.source, a.listens, Lookup.phaseAfter s.directory id response⟩
  { registry :=
      { r with
        stores := r.stores.modify n Store.called
        lookups := r.lookups ++ [lookup] }
    reply := .started r.lookups.length (s.pause.observe ⟨s.delay, a.listens, stopped⟩)
    events := .lookupStarted id s.delay.ms :: Lookup.callEvents id response }

theorem on_sendOff (a : Attachment) (n : Nat) (s : Store) (id : UInt64) :
    (sendOff n s id a.source a.listens).on ⟨a.registry, []⟩ =
      (.ok (launch a n s id).reply, ⟨(launch a n s id).registry, (launch a n s id).events⟩) := rfl

theorem on_start_of_attach {r : Registry} {n : Int} {token : Lookup.Token} {i : Nat} {s : Store}
    {a : Attachment} (hn : n.toNat? = some i) (hs : r.stores[i]? = some s)
    (ha : r.attach token = .ok a) (id : UInt64) :
    (start n id token).on ⟨r, []⟩ =
      (.ok (launch a i s id).reply, ⟨(launch a i s id).registry, (launch a i s id).events⟩) := by
  simp [start, hn, hs, on_takeSource_of_attach ha, on_sendOff]

/-- A lookup is started only in a store that is there and with a token that comes to a source. -/
theorem attach_of_on_start {r : Registry} {n : Int} {id : UInt64} {token : Lookup.Token}
    {reply : Reply} (h : ((start n id token).on ⟨r, []⟩).1 = .ok reply) :
    ∃ i s a, n.toNat? = some i ∧ r.stores[i]? = some s ∧ r.attach token = .ok a := by
  cases hn : n.toNat? with
  | none => simp [start, hn] at h
  | some i =>
    cases hs : r.stores[i]? with
    | none => simp [start, hn, hs] at h
    | some s =>
      rcases hon : (takeSource token).on ⟨r, []⟩ with ⟨_ | p, d⟩
      · simp [start, hn, hs, hon] at h
      · refine ⟨i, s, ⟨d.registry, p.1, p.2⟩, rfl, hs, ?_⟩
        rw [attach, hon]

/-! ## The ways to carry a command out -/

/-- What a command that is carried out comes to, one case for each way to carry it out. -/
inductive Performed (r : Registry) : Command → Effect → Prop where
  | opened {delay : Option Int} {pause : Pause} {d : Delay} (hd : Delay.ofWish delay = .ok d) :
      Performed r (.openStore delay pause)
        ⟨{ r with stores := r.stores ++ [.new d pause] }, .opened r.stores.length, []⟩
  | appointed {n : Int} {i : Nat} (hn : n.toNat? = some i) (hi : i < r.stores.length) :
      Performed r (.appoint n)
        ⟨{ r with registrars := r.registrars ++ [i] }, .appointed r.registrars.length, []⟩
  | acted {t : Target} {a : Action} {n : Nat} {s : Store} (hn : r.storeNumber? t = some n)
      (hs : r.stores[n]? = some s) :
      Performed r (.act t a)
        ⟨{ r with stores := r.stores.modify n (·.act a) },
          .answered (s.directory.answer a), s.directory.events a⟩
  /-- The delay is too long to be sat out. -/
  | launched {n : Int} {id : UInt64} {token : Lookup.Token} {i : Nat} {s : Store} {a : Attachment}
      (hn : n.toNat? = some i) (hs : r.stores[i]? = some s) (ha : r.attach token = .ok a)
      (hlong : patience < s.delay.ms) :
      Performed r (.lookup n id token) (launch a i s id)
  /-- The delay is short, and has passed when the start is answered. -/
  | satOut {n : Int} {id : UInt64} {token : Lookup.Token} {i : Nat} {s : Store} {a : Attachment}
      (hn : n.toNat? = some i) (hs : r.stores[i]? = some s) (ha : r.attach token = .ok a)
      (hshort : s.delay.ms ≤ patience) :
      Performed r (.lookup n id token)
        { launch a i s id with
          registry := ((launch a i s id).registry.elapse r.lookups.length).1
          events := (launch a i s id).events
            ++ ((launch a i s id).registry.elapse r.lookups.length).2 }
  | stopped {n : Int} {i : Nat} {l : Lookup} (hn : n.toNat? = some i)
      (hl : r.openLookup i = .ok l) (hlistens : l.listens = true) :
      Performed r (.stop n)
        ⟨(r.requestStop l.source).1, .stopped (!r.isStopped l.source),
          (r.requestStop l.source).2⟩
  | released {n : Int} {how : Pause.Release} {i : Nat} {l : Lookup} (hn : n.toNat? = some i)
      (hl : r.lookups[i]? = some l) (hgated : l.phase = .gated) :
      Performed r (.release n how)
        ⟨r.setLookup i (r.conclude l (how.verdict (r.hears l))), .released,
          Lookup.endEvents l.id (how.verdict (r.hears l))⟩
  | collected {n : Int} {i : Nat} {l : Lookup} {o : Lookup.Outcome} (hn : n.toNat? = some i)
      (hl : r.lookups[i]? = some l) (hended : l.phase = .ended o) :
      Performed r (.collect n)
        ⟨r.setLookup i { l with phase := .collected o }, .collected o, []⟩

theorem openLookup_eq_ok_iff {r : Registry} {i : Nat} {l : Lookup} :
    r.openLookup i = .ok l ↔ r.lookups[i]? = some l ∧ ∀ o, l.phase ≠ .collected o := by
  unfold openLookup
  cases hl : r.lookups[i]? with
  | none => simp
  | some l' =>
    cases hphase : l'.phase with
    | collected o =>
      simp only [hphase, reduceCtorEq, Option.some.injEq, false_iff]
      rintro ⟨rfl, hopen⟩
      exact hopen o hphase
    | _ =>
      simp only [hphase, Except.ok.injEq, Option.some.injEq, iff_self_and]
      rintro rfl
      simp [hphase]

section
variable {r : Registry} {n : Int} {i : Nat} {s : Store} {l : Lookup}

theorem perform_openStore {delay : Option Int} {d : Delay} (hd : Delay.ofWish delay = .ok d)
    (pause : Pause) :
    r.perform (.openStore delay pause) = .ok
      ⟨{ r with stores := r.stores ++ [.new d pause] }, .opened r.stores.length, []⟩ := by
  simp [perform, effect, carryOut, openStore, hd]

theorem perform_openStore_of_fault {delay : Option Int} {f : Delay.Fault}
    (hd : Delay.ofWish delay = .error f) (pause : Pause) :
    r.perform (.openStore delay pause) = .error (.delay f) := by
  simp [perform, effect, carryOut, openStore, hd]

theorem perform_appoint (hn : n.toNat? = some i) (hi : i < r.stores.length) :
    r.perform (.appoint n) = .ok
      ⟨{ r with registrars := r.registrars ++ [i] }, .appointed r.registrars.length, []⟩ := by
  simp [perform, effect, carryOut, appoint, hn, hi]

theorem perform_appoint_of_no_store (h : ∀ i, n.toNat? = some i → ¬ i < r.stores.length) :
    r.perform (.appoint n) = .error (.refused .noStore) := by
  cases hn : n.toNat? with
  | none => simp [perform, effect, carryOut, appoint, hn]
  | some i => simp [perform, effect, carryOut, appoint, hn, h i hn]

theorem perform_act {t : Target} {k : Nat} (hk : r.storeNumber? t = some k)
    (hs : r.stores[k]? = some s) (a : Action) :
    r.perform (.act t a) = .ok
      ⟨{ r with stores := r.stores.modify k (·.act a) },
        .answered (s.directory.answer a), s.directory.events a⟩ := by
  simp [perform, effect, carryOut, act, hk, hs]

theorem perform_act_of_no_target {t : Target} (hk : r.storeNumber? t = none) (a : Action) :
    r.perform (.act t a) = .error (.refused t.refusal) := by
  simp [perform, effect, carryOut, act, hk]

theorem perform_act_of_no_store {t : Target} {k : Nat} (hk : r.storeNumber? t = some k)
    (hs : r.stores[k]? = none) (a : Action) :
    r.perform (.act t a) = .error (.refused .noStore) := by
  simp [perform, effect, carryOut, act, hk, hs]

theorem sitsOut_eq (hn : n.toNat? = some i) (hs : r.stores[i]? = some s) :
    r.sitsOut n = decide (s.delay.ms ≤ patience) := by
  simp [sitsOut, under?, hn, hs]

theorem perform_lookup {token : Lookup.Token} {a : Attachment} (hn : n.toNat? = some i)
    (hs : r.stores[i]? = some s) (ha : r.attach token = .ok a) (id : UInt64) :
    r.perform (.lookup n id token) = .ok
      (if s.delay.ms ≤ patience then
        { launch a i s id with
          registry := ((launch a i s id).registry.elapse r.lookups.length).1
          events := (launch a i s id).events
            ++ ((launch a i s id).registry.elapse r.lookups.length).2 }
      else launch a i s id) := by
  have hstart := on_start_of_attach hn hs ha id
  have hsits := sitsOut_eq hn hs
  by_cases hshort : s.delay.ms ≤ patience
  · simp [perform, effect, carryOut, lookup, hstart, hsits, hshort]
  · simp [perform, effect, carryOut, lookup, hstart, hsits, hshort]

theorem perform_stop (hn : n.toNat? = some i) (hl : r.openLookup i = .ok l)
    (hlistens : l.listens = true) :
    r.perform (.stop n) = .ok
      ⟨(r.requestStop l.source).1, .stopped (!r.isStopped l.source),
        (r.requestStop l.source).2⟩ := by
  simp [perform, effect, carryOut, stop, hn, hl, hlistens]

theorem perform_release {how : Pause.Release} (hn : n.toNat? = some i)
    (hl : r.lookups[i]? = some l) (hgated : l.phase = .gated) :
    r.perform (.release n how) = .ok
      ⟨r.setLookup i (r.conclude l (how.verdict (r.hears l))), .released,
        Lookup.endEvents l.id (how.verdict (r.hears l))⟩ := by
  have hopen : r.openLookup i = .ok l := openLookup_eq_ok_iff.mpr ⟨hl, by simp [hgated]⟩
  simp [perform, effect, carryOut, release, hn, hopen, hgated]

theorem perform_collect {o : Lookup.Outcome} (hn : n.toNat? = some i)
    (hl : r.lookups[i]? = some l) (hended : l.phase = .ended o) :
    r.perform (.collect n) =
      .ok ⟨r.setLookup i { l with phase := .collected o }, .collected o, []⟩ := by
  have hopen : r.openLookup i = .ok l := openLookup_eq_ok_iff.mpr ⟨hl, by simp [hended]⟩
  simp [perform, effect, carryOut, collect, hn, hopen, Lookup.outcome?, hended]

theorem perform_collect_of_collected {o : Lookup.Outcome} (hn : n.toNat? = some i)
    (hl : r.lookups[i]? = some l) (hcollected : l.phase = .collected o) :
    r.perform (.collect n) = .error (.refused .alreadyCollected) := by
  have hopen : r.openLookup i = .error .alreadyCollected := by
    rw [openLookup, hl]
    simp only [hcollected]
  simp [perform, effect, carryOut, collect, hn, hopen]

end

/-- **A command that is carried out is carried out in one of the listed ways.** -/
theorem performed_of_perform {r : Registry} {c : Command} {e : Effect}
    (h : r.perform c = .ok e) : Performed r c e := by
  cases c with
  | openStore delay pause =>
    cases hd : Delay.ofWish delay with
    | error f =>
      rw [perform_openStore_of_fault hd] at h
      cases h
    | ok d =>
      rw [perform_openStore hd] at h
      cases h
      exact .opened hd
  | appoint n =>
    by_cases hthere : ∃ i, n.toNat? = some i ∧ i < r.stores.length
    · obtain ⟨i, hn, hi⟩ := hthere
      rw [perform_appoint hn hi] at h
      cases h
      exact .appointed hn hi
    · rw [perform_appoint_of_no_store fun i hn hi => hthere ⟨i, hn, hi⟩] at h
      cases h
  | act t a =>
    cases hn : r.storeNumber? t with
    | none =>
      rw [perform_act_of_no_target hn] at h
      cases h
    | some n =>
      cases hs : r.stores[n]? with
      | none =>
        rw [perform_act_of_no_store hn hs] at h
        cases h
      | some s =>
        rw [perform_act hn hs] at h
        cases h
        exact .acted hn hs
  | lookup n id token =>
    -- A lookup can break off at its start only, so the start was answered.
    have hstart : ∃ reply, ((start n id token).on ⟨r, []⟩).1 = .ok reply := by
      rcases hon : (start n id token).on ⟨r, []⟩ with ⟨_ | reply, d⟩
      · simp [perform, effect, carryOut, lookup, hon] at h
      · exact ⟨reply, rfl⟩
    obtain ⟨reply, hreply⟩ := hstart
    obtain ⟨i, s, a, hn, hs, ha⟩ := attach_of_on_start hreply
    rw [perform_lookup hn hs ha] at h
    split at h
    · next hshort =>
      cases h
      exact .satOut hn hs ha hshort
    · next hlong =>
      cases h
      exact .launched hn hs ha (Nat.lt_of_not_le hlong)
  | stop n =>
    cases hn : n.toNat? with
    | none => simp [perform, effect, carryOut, stop, hn] at h
    | some i =>
      cases hl : r.openLookup i with
      | error f => simp [perform, effect, carryOut, stop, hn, hl] at h
      | ok l =>
        by_cases hlistens : l.listens = true
        · rw [perform_stop hn hl hlistens] at h
          cases h
          exact .stopped hn hl hlistens
        · simp [perform, effect, carryOut, stop, hn, hl, hlistens] at h
  | release n how =>
    cases hn : n.toNat? with
    | none => simp [perform, effect, carryOut, release, hn] at h
    | some i =>
      cases hl : r.openLookup i with
      | error f => simp [perform, effect, carryOut, release, hn, hl] at h
      | ok l =>
        by_cases hgated : l.phase = .gated
        · have hlook := (openLookup_eq_ok_iff.mp hl).1
          rw [perform_release hn hlook hgated] at h
          cases h
          exact .released hn hlook hgated
        · simp [perform, effect, carryOut, release, hn, hl, hgated] at h
  | collect n =>
    cases hn : n.toNat? with
    | none => simp [perform, effect, carryOut, collect, hn] at h
    | some i =>
      cases hl : r.openLookup i with
      | error f => simp [perform, effect, carryOut, collect, hn, hl] at h
      | ok l =>
        obtain ⟨hlook, hopen⟩ := openLookup_eq_ok_iff.mp hl
        cases ho : l.phase with
        | ended o =>
          rw [perform_collect hn hlook ho] at h
          cases h
          exact .collected hn hlook ho
        | collected o => exact absurd ho (hopen o)
        | sleeping =>
          simp [perform, effect, carryOut, collect, hn, hl, Lookup.outcome?, ho] at h
        | gated =>
          simp [perform, effect, carryOut, collect, hn, hl, Lookup.outcome?, ho] at h

end Roster.Registry
