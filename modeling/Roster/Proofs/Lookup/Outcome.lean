import Roster.Proofs.Registry.Run

/-!
# Outcomes of lookups

A lookup is answered when its pause ends. `Returns r m handle v` says that the pause of a lookup ends
during a move, and how: it is told from the pauses alone, from what they say when they are called,
when their delay passes, when they are stopped or released.

* What a pause says fixes the outcome, by the directory at that moment (`Returns.ended`).
* Nothing else gives a lookup an outcome (`returns_of_outcome`).
* No later move changes it (`continues_after`), and it waits to be handed out
  (`getElem?_afterAll_of_ended`).
-/

namespace Roster

namespace Lookup

/-- A lookup at a later time: it is the same one, and keeps its outcome once it has one. -/
structure Continues (l l' : Lookup) : Prop where
  store : l'.store = l.store
  id : l'.id = l.id
  source : l'.source = l.source
  listens : l'.listens = l.listens
  outcome : ∀ o, l.outcome? = some o → l'.outcome? = some o

theorem Continues.refl (l : Lookup) : l.Continues l := ⟨rfl, rfl, rfl, rfl, fun _ h => h⟩

theorem Continues.trans {l l' l'' : Lookup} (h : l.Continues l') (h' : l'.Continues l'') :
    l.Continues l'' where
  store := h'.store.trans h.store
  id := h'.id.trans h.id
  source := h'.source.trans h.source
  listens := h'.listens.trans h.listens
  outcome o ho := h'.outcome o (h.outcome o ho)

@[simp] theorem outcome?_of_sleeping {l : Lookup} (h : l.phase = .sleeping) :
    l.outcome? = none := by
  rw [outcome?, h]

@[simp] theorem outcome?_of_gated {l : Lookup} (h : l.phase = .gated) : l.outcome? = none := by
  rw [outcome?, h]

theorem outcome?_of_ended {l : Lookup} {o : Outcome} (h : l.phase = .ended o) :
    l.outcome? = some o := by
  rw [outcome?, h]

/-- An ended lookup has an outcome whether it was handed out or not. -/
theorem outcome?_eq_some_iff {l : Lookup} {o : Outcome} :
    l.outcome? = some o ↔ l.phase = .ended o ∨ l.phase = .collected o := by
  cases h : l.phase <;> simp [outcome?, h]

theorem wakesOn_iff {l : Lookup} {source : Nat} :
    l.wakesOn source = true ↔
      l.phase = .sleeping ∧ l.listens = true ∧ l.source = source := by
  simp [wakesOn, and_assoc]

end Lookup

namespace Registry

open Log (Event)

/-! ## When a pause ends -/

/-- The pause of the lookup under a handle ends with a verdict during a move. -/
inductive Returns (r : Registry) : Move → Nat → Pause.Verdict → Prop where
  /-- It was called, and ends at once. -/
  | called {n : Int} {id : UInt64} {token : Lookup.Token} {i : Nat} {s : Store} {a : Attachment}
      {v : Pause.Verdict} (hn : n.toNat? = some i) (hs : r.stores[i]? = some s)
      (ha : r.attach token = .ok a)
      (hv : s.response (a.listens && a.registry.isStopped a.source) = .ends v) :
      Returns r (.start n id token) r.lookups.length v
  /-- Its delay has passed: it completes unless it has heard a stop. -/
  | elapsed {handle : Nat} {l : Lookup} (hl : r.lookups[handle]? = some l)
      (hsleeping : l.phase = .sleeping) :
      Returns r (.elapse handle) handle (.ofCompletes (!r.hears l))
  /-- A stop was requested on the source that it listens to. -/
  | stopped {n : Int} {i : Nat} {asked : Lookup} {handle : Nat} {l : Lookup}
      (hn : n.toNat? = some i) (hasked : r.openLookup i = .ok asked)
      (hlistens : asked.listens = true) (hl : r.lookups[handle]? = some l)
      (hwakes : l.wakesOn asked.source = true) :
      Returns r (.command (.stop n)) handle .interrupted
  /-- It was held, and is let go. -/
  | released {n : Int} {how : Pause.Release} {handle : Nat} {l : Lookup}
      (hn : n.toNat? = some handle) (hl : r.lookups[handle]? = some l)
      (hgated : l.phase = .gated) :
      Returns r (.command (.release n how)) handle (how.verdict (r.hears l))
  /-- It ended at once when a lookup was asked for. -/
  | looked {n : Int} {id : UInt64} {token : Lookup.Token} {handle : Nat} {v : Pause.Verdict}
      (h : Returns r (.start n id token) handle v) :
      Returns r (.command (.lookup n id token)) handle v
  /-- Its delay was sat out when a lookup was asked for. -/
  | satOut {n : Int} {id : UInt64} {token : Lookup.Token} {l : Lookup}
      (hsits : r.sitsOut n = true)
      (hl : (r.after (.start n id token)).lookups[r.lookups.length]? = some l)
      (hsleeping : l.phase = .sleeping) :
      Returns r (.command (.lookup n id token)) r.lookups.length
        (.ofCompletes (!(r.after (.start n id token)).hears l))

/-! ## What each step does to the lookups -/

theorem lookups_attach {r : Registry} {token : Lookup.Token} {a : Attachment}
    (h : r.attach token = .ok a) : a.registry.lookups = r.lookups := by
  rcases attach_cases h with ⟨_, rfl⟩ | ⟨_, _, _, _, rfl⟩
  · rfl
  · rfl

def launched (a : Attachment) (i : Nat) (s : Store) (id : UInt64) : Lookup :=
  ⟨i, id, a.source, a.listens,
    Lookup.phaseAfter s.directory id (s.response (a.listens && a.registry.isStopped a.source))⟩

theorem lookups_launch {r : Registry} {token : Lookup.Token} {a : Attachment}
    (ha : r.attach token = .ok a) (i : Nat) (s : Store) (id : UInt64) :
    (launch a i s id).registry.lookups = r.lookups ++ [launched a i s id] := by
  rw [← lookups_attach ha]
  rfl

theorem outcome?_launched (a : Attachment) (i : Nat) (s : Store) (id : UInt64) :
    (launched a i s id).outcome? =
      match s.response (a.listens && a.registry.isStopped a.source) with
      | .ends v => some (Lookup.conclude s.directory id v)
      | .sleeps | .blocks => none := by
  unfold launched Lookup.outcome?
  cases s.response (a.listens && a.registry.isStopped a.source) <;> rfl

theorem elapse_of_sleeping {r : Registry} {handle : Nat} {l : Lookup}
    (hl : r.lookups[handle]? = some l) (hsleeping : l.phase = .sleeping) :
    r.elapse handle =
      (r.setLookup handle (r.conclude l (.ofCompletes (!r.hears l))),
        Lookup.endEvents l.id (.ofCompletes (!r.hears l))) := by
  rw [elapse, hl]
  exact if_pos hsleeping

theorem elapse_of_not_sleeping {r : Registry} {handle : Nat} {l : Lookup}
    (hl : r.lookups[handle]? = some l) (hawake : l.phase ≠ .sleeping) :
    r.elapse handle = (r, []) := by
  rw [elapse, hl]
  exact if_neg hawake

theorem outcome?_conclude (r : Registry) (l : Lookup) (v : Pause.Verdict) :
    (r.conclude l v).outcome? = some (Lookup.conclude (r.directory l.store) l.id v) := rfl

/-- A lookup without an outcome is the same one once its pause has ended. -/
theorem continues_conclude (r : Registry) {l : Lookup} (hpending : l.outcome? = none)
    (v : Pause.Verdict) : l.Continues (r.conclude l v) :=
  ⟨rfl, rfl, rfl, rfl, fun o ho => by rw [hpending] at ho; cases ho⟩

theorem getElem?_setLookup_self {r : Registry} {handle : Nat} {l : Lookup}
    (hl : r.lookups[handle]? = some l) (l' : Lookup) :
    (r.setLookup handle l').lookups[handle]? = some l' := by
  have hlen : handle < r.lookups.length := (List.getElem?_eq_some_iff.mp hl).1
  exact List.getElem?_set_self hlen

theorem getElem?_requestStop (r : Registry) (source handle : Nat) :
    (r.requestStop source).1.lookups[handle]? =
      (r.lookups[handle]?).map fun l =>
        if l.wakesOn source then r.conclude l .interrupted else l :=
  List.getElem?_map

/-! ## Outcomes stay -/

/-- Every lookup of the one registry is found in the other, later. -/
def Continues (r r' : Registry) : Prop :=
  ∀ (handle : Nat) (l : Lookup), r.lookups[handle]? = some l →
    ∃ l', r'.lookups[handle]? = some l' ∧ l.Continues l'

theorem Continues.of_lookups_eq {r r' : Registry} (h : r'.lookups = r.lookups) :
    r.Continues r' := by
  intro handle l hl
  exact ⟨l, by rw [h, hl], .refl l⟩

theorem Continues.trans {r r' r'' : Registry} (h : r.Continues r') (h' : r'.Continues r'') :
    r.Continues r'' := by
  intro handle l hl
  obtain ⟨l', hl', hcont⟩ := h handle l hl
  obtain ⟨l'', hl'', hcont'⟩ := h' handle l' hl'
  exact ⟨l'', hl'', hcont.trans hcont'⟩

theorem continues_setLookup {r : Registry} {i : Nat} {l₀ l₁ : Lookup}
    (h₀ : r.lookups[i]? = some l₀) (hcont : l₀.Continues l₁) : r.Continues (r.setLookup i l₁) := by
  intro handle l hl
  by_cases hi : handle = i
  · subst hi
    cases h₀.symm.trans hl
    exact ⟨l₁, getElem?_setLookup_self h₀ l₁, hcont⟩
  · refine ⟨l, ?_, .refl l⟩
    rw [← hl]
    exact List.getElem?_set_ne (Ne.symm hi)

theorem continues_launch {r : Registry} {token : Lookup.Token} {a : Attachment}
    (ha : r.attach token = .ok a) (i : Nat) (s : Store) (id : UInt64) :
    r.Continues (launch a i s id).registry := by
  intro handle l hl
  have hlen : handle < r.lookups.length := (List.getElem?_eq_some_iff.mp hl).1
  refine ⟨l, ?_, .refl l⟩
  rw [lookups_launch ha, List.getElem?_append_left hlen, hl]

theorem continues_elapse (r : Registry) (handle : Nat) : r.Continues (r.elapse handle).1 := by
  cases hl : r.lookups[handle]? with
  | none =>
    rw [elapse_of_none hl]
    exact .of_lookups_eq rfl
  | some l =>
    by_cases hsleeping : l.phase = .sleeping
    · rw [elapse_of_sleeping hl hsleeping]
      exact continues_setLookup hl (continues_conclude r (Lookup.outcome?_of_sleeping hsleeping) _)
    · rw [elapse_of_not_sleeping hl hsleeping]
      exact .of_lookups_eq rfl

theorem continues_requestStop (r : Registry) (source : Nat) :
    r.Continues (r.requestStop source).1 := by
  intro handle l hl
  rw [getElem?_requestStop, hl, Option.map_some]
  by_cases hwakes : l.wakesOn source = true
  · have hpending := Lookup.outcome?_of_sleeping (Lookup.wakesOn_iff.mp hwakes).1
    exact ⟨_, by rw [if_pos hwakes], continues_conclude r hpending _⟩
  · exact ⟨l, by rw [if_neg hwakes], .refl l⟩

theorem continues_start (r : Registry) (n : Int) (id : UInt64) (token : Lookup.Token) :
    r.Continues (r.after (.start n id token)) := by
  show r.Continues ((r.start? n id token).elim r Effect.registry)
  cases hstart : r.start? n id token with
  | none => exact .of_lookups_eq rfl
  | some e =>
    obtain ⟨i, s, a, _, _, ha, rfl⟩ := attach_of_start? hstart
    exact continues_launch ha i s id

/-- **No move changes an outcome.** -/
theorem continues_after (r : Registry) (m : Move) : r.Continues (r.after m) := by
  cases m with
  | command c =>
    show r.Continues (r.next c)
    cases hperf : r.perform c with
    | error f =>
      rw [next_of_refused hperf]
      exact .of_lookups_eq rfl
    | ok e =>
      rw [next_of_perform hperf]
      cases performed_of_perform hperf with
      | opened _ => exact .of_lookups_eq rfl
      | appointed _ _ => exact .of_lookups_eq rfl
      | acted _ _ => exact .of_lookups_eq rfl
      | launched _ _ ha _ => exact continues_launch ha _ _ _
      | satOut _ _ ha _ => exact (continues_launch ha _ _ _).trans (continues_elapse _ _)
      | stopped _ _ _ => exact continues_requestStop r _
      | released _ hl hgated =>
        exact continues_setLookup hl (continues_conclude r (Lookup.outcome?_of_gated hgated) _)
      | collected _ hl hended =>
        refine continues_setLookup hl ⟨rfl, rfl, rfl, rfl, fun o ho => ?_⟩
        rw [Lookup.outcome?_of_ended hended] at ho
        exact ho
  | start n id token => exact continues_start r n id token
  | elapse handle => exact continues_elapse r handle

/-- No run changes an outcome. -/
theorem continues_afterAll (r : Registry) (ms : List Move) : r.Continues (r.afterAll ms) := by
  induction ms generalizing r with
  | nil => exact .of_lookups_eq rfl
  | cons m ms ih => exact (continues_after r m).trans (ih (r.after m))

/-- What a lookup leaves once its delay was sat out is later than what its start leaves. -/
theorem continues_lookup (r : Registry) (n : Int) (id : UInt64) (token : Lookup.Token) :
    (r.after (.start n id token)).Continues (r.after (.command (.lookup n id token))) := by
  rw [(after_lookup r n id token).1, lookupMoves, afterAll_cons]
  exact continues_afterAll _ _

/-! ## Outcomes wait to be handed out -/

section

variable {r : Registry} {handle : Nat} {l : Lookup} {o : Lookup.Outcome}

theorem getElem?_launch (hl : r.lookups[handle]? = some l) {token : Lookup.Token} {a : Attachment}
    (ha : r.attach token = .ok a) (i : Nat) (s : Store) (id : UInt64) :
    (launch a i s id).registry.lookups[handle]? = some l := by
  rw [lookups_launch ha, List.getElem?_append_left (List.getElem?_eq_some_iff.mp hl).1]
  exact hl

theorem getElem?_elapse_of_awake (hl : r.lookups[handle]? = some l) (hawake : l.phase ≠ .sleeping)
    (k : Nat) : (r.elapse k).1.lookups[handle]? = some l := by
  unfold elapse
  split
  · exact hl
  · next l' hl' =>
    split
    · next hsleeping =>
      have hne : k ≠ handle := by
        rintro rfl
        cases hl.symm.trans hl'
        exact hawake hsleeping
      exact (List.getElem?_set_ne hne).trans hl
    · exact hl

/-- **A lookup that has an outcome stays as it is until the outcome is handed out.** -/
theorem getElem?_after_of_outcome (hl : r.lookups[handle]? = some l) (ho : l.outcome? = some o)
    {m : Move} (hm : m = .command (.collect handle) → l.phase ≠ .ended o) :
    (r.after m).lookups[handle]? = some l := by
  have hawake : l.phase ≠ .sleeping := by
    intro hsleeping
    rw [Lookup.outcome?_of_sleeping hsleeping] at ho
    cases ho
  have hset : ∀ {i}, i ≠ handle → ∀ l', (r.setLookup i l').lookups[handle]? = some l := by
    intro i hi l'
    exact (List.getElem?_set_ne hi).trans hl
  cases m with
  | start n id token =>
    show ((r.start? n id token).elim r Effect.registry).lookups[handle]? = some l
    cases hstart : r.start? n id token with
    | none => exact hl
    | some e =>
      obtain ⟨i, s, a, _, _, ha, rfl⟩ := attach_of_start? hstart
      exact getElem?_launch hl ha i s id
  | elapse k => exact getElem?_elapse_of_awake hl hawake k
  | command c =>
    show (r.next c).lookups[handle]? = some l
    cases hperf : r.perform c with
    | error f =>
      rw [next_of_refused hperf]
      exact hl
    | ok e =>
      rw [next_of_perform hperf]
      cases performed_of_perform hperf with
      | opened _ => exact hl
      | appointed _ _ => exact hl
      | acted _ _ => exact hl
      | launched _ _ ha _ => exact getElem?_launch hl ha _ _ _
      | satOut _ _ ha _ => exact getElem?_elapse_of_awake (getElem?_launch hl ha _ _ _) hawake _
      | stopped _ _ _ =>
        rw [getElem?_requestStop, hl, Option.map_some, if_neg]
        rw [Lookup.wakesOn_iff]
        exact fun hwakes => hawake hwakes.1
      | released _ hl' hgated =>
        refine hset ?_ _
        rintro rfl
        cases hl.symm.trans hl'
        rw [Lookup.outcome?_of_gated hgated] at ho
        cases ho
      | collected hn hl' hended =>
        refine hset ?_ _
        rintro rfl
        cases hl.symm.trans hl'
        cases (Lookup.outcome?_of_ended hended).symm.trans ho
        exact hm (congrArg (Move.command <| .collect ·) (Int.mem_toNat?.mp hn)) hended

theorem getElem?_afterAll_of_collected (hl : r.lookups[handle]? = some l)
    (hcollected : l.phase = .collected o) (ms : List Move) :
    (r.afterAll ms).lookups[handle]? = some l := by
  induction ms generalizing r with
  | nil => exact hl
  | cons m ms ih =>
    apply ih
    apply getElem?_after_of_outcome hl (Lookup.outcome?_eq_some_iff.mpr (.inr hcollected))
    simp [hcollected]

/-- **Over a whole run an outcome waits for the first who asks for it.** -/
theorem getElem?_afterAll_of_ended (hl : r.lookups[handle]? = some l) (hended : l.phase = .ended o)
    (ms : List Move) :
    (r.afterAll ms).lookups[handle]? = some
      { l with phase := if .command (.collect handle) ∈ ms then .collected o else .ended o } := by
  -- The first move that asks for the outcome moves it on; what comes before leaves the lookup alone
  -- (`getElem?_after_of_outcome`), and so does all that comes after.
  induction ms generalizing r with
  | nil =>
    rw [if_neg (by simp), ← hended]
    exact hl
  | cons m ms ih =>
    rw [afterAll_cons]
    by_cases hm : m = .command (.collect handle)
    · have hn : (handle : Int).toNat? = some handle := rfl
      subst hm
      rw [if_pos (by simp)]
      apply getElem?_afterAll_of_collected _ rfl
      rw [after, next_of_perform (perform_collect hn hl hended)]
      exact getElem?_setLookup_self hl _
    · have hmem : .command (.collect handle) ∈ m :: ms ↔ Move.command (.collect handle) ∈ ms := by
        simp [Ne.symm hm]
      simp only [hmem]
      exact ih (getElem?_after_of_outcome hl (Lookup.outcome?_of_ended hended) (absurd · hm))

end

/-! ## What a pause says is what the lookup ends with -/

theorem directory_start (r : Registry) (n : Int) (id : UInt64) (token : Lookup.Token) (k : Nat) :
    (r.after (.start n id token)).directory k = r.directory k :=
  directory_after r (.start n id token) k

/-- **The outcome is fixed when the pause ends**, by what the pause says and by the directory at
that moment, and nobody has been given it yet. -/
theorem Returns.ended {r : Registry} {m : Move} {handle : Nat} {v : Pause.Verdict}
    (h : Returns r m handle v) :
    ∃ l, (r.after m).lookups[handle]? = some l ∧
      l.phase = .ended (Lookup.conclude (r.directory l.store) l.id v) := by
  induction h with
  | @called n id token i s a v hn hs ha hv =>
    have hdir : r.directory i = s.directory := by rw [directory, hs]; rfl
    refine ⟨launched a i s id, ?_, ?_⟩
    · rw [after, start?_of_attach hn hs ha, Option.elim_some, lookups_launch ha]
      exact List.getElem?_concat_length
    · show Lookup.phaseAfter s.directory id _ = _
      rw [hv]
      exact congrArg (fun d => Lookup.Phase.ended (Lookup.conclude d id v)) hdir.symm
  | @elapsed handle l hl hsleeping =>
    refine ⟨r.conclude l _, ?_, rfl⟩
    rw [after, elapse_of_sleeping hl hsleeping]
    exact getElem?_setLookup_self hl _
  | @stopped n i asked handle l hn hasked hlistens hl hwakes =>
    refine ⟨r.conclude l _, ?_, rfl⟩
    rw [after, next_of_perform (perform_stop hn hasked hlistens), getElem?_requestStop, hl,
      Option.map_some, if_pos hwakes]
  | @released n how handle l hn hl hgated =>
    refine ⟨r.conclude l _, ?_, rfl⟩
    rw [after, next_of_perform (perform_release hn hl hgated)]
    exact getElem?_setLookup_self hl _
  | @looked n id token handle v _ ih =>
    -- If the delay passes as well, it passes a lookup that sleeps no more.
    obtain ⟨l, hl, hended⟩ := ih
    refine ⟨l, ?_, hended⟩
    rw [after_lookup_eq]
    split
    · exact getElem?_elapse_of_awake hl (by simp [hended]) _
    · exact hl
  | @satOut n id token l hsits hl hsleeping =>
    have hlast : r.after (.command (.lookup n id token)) =
        ((r.after (.start n id token)).elapse r.lookups.length).1 := by
      rw [after_lookup_eq, if_pos hsits]
    rw [hlast, elapse_of_sleeping hl hsleeping]
    refine ⟨_, getElem?_setLookup_self hl _, ?_⟩
    show Lookup.Phase.ended (Lookup.conclude ((r.after (.start n id token)).directory l.store) l.id _)
      = _
    rw [directory_start]
    rfl

theorem Returns.outcome {r : Registry} {m : Move} {handle : Nat} {v : Pause.Verdict}
    (h : Returns r m handle v) :
    ∃ l, (r.after m).lookups[handle]? = some l ∧
      l.outcome? = some (Lookup.conclude (r.directory l.store) l.id v) := by
  obtain ⟨l, hl, hended⟩ := h.ended
  exact ⟨l, hl, Lookup.outcome?_of_ended hended⟩

/-! ## Nothing else gives an outcome -/

theorem getElem?_of_setLookup {r : Registry} {i handle : Nat} {l₁ l' : Lookup}
    (h : (r.setLookup i l₁).lookups[handle]? = some l') :
    handle = i ∧ l' = l₁ ∨ r.lookups[handle]? = some l' := by
  simp only [setLookup, List.getElem?_set] at h
  split at h
  · next hi =>
    split at h
    · cases h
      exact .inl ⟨hi.symm, rfl⟩
    · cases h
  · exact .inr h

theorem returns_of_outcome_start {r : Registry} {n : Int} {id : UInt64} {token : Lookup.Token}
    {handle : Nat} {l' : Lookup} {o : Lookup.Outcome}
    (hl' : (r.after (.start n id token)).lookups[handle]? = some l') (ho : l'.outcome? = some o) :
    (∃ l, r.lookups[handle]? = some l ∧ l.outcome? = some o) ∨
      ∃ v, Returns r (.start n id token) handle v := by
  rw [after] at hl'
  cases hstart : r.start? n id token with
  | none =>
    rw [hstart] at hl'
    exact .inl ⟨l', hl', ho⟩
  | some e =>
    obtain ⟨i, s, a, hn, hs, ha, rfl⟩ := attach_of_start? hstart
    rw [hstart, Option.elim_some, lookups_launch ha, List.getElem?_append] at hl'
    split at hl'
    · exact .inl ⟨l', hl', ho⟩
    · next hlen =>
      have hlast : handle - r.lookups.length = 0 := by
        have := (List.getElem?_eq_some_iff.mp hl').1
        simp at this
        omega
      have hhandle : handle = r.lookups.length := by omega
      rw [hlast] at hl'
      cases hl'
      rw [outcome?_launched] at ho
      split at ho
      · next v hv =>
        subst hhandle
        exact .inr ⟨v, .called hn hs ha hv⟩
      · cases ho
      · cases ho

theorem returns_of_outcome_elapse {r : Registry} {k handle : Nat} {l' : Lookup}
    {o : Lookup.Outcome} (hl' : (r.elapse k).1.lookups[handle]? = some l')
    (ho : l'.outcome? = some o) :
    (∃ l, r.lookups[handle]? = some l ∧ l.outcome? = some o) ∨
      handle = k ∧ ∃ l, r.lookups[k]? = some l ∧ l.phase = .sleeping := by
  cases hl : r.lookups[k]? with
  | none =>
    rw [elapse_of_none hl] at hl'
    exact .inl ⟨l', hl', ho⟩
  | some l =>
    by_cases hsleeping : l.phase = .sleeping
    · rw [elapse_of_sleeping hl hsleeping] at hl'
      rcases getElem?_of_setLookup hl' with ⟨hk, _⟩ | hold
      · exact .inr ⟨hk, l, rfl, hsleeping⟩
      · exact .inl ⟨l', hold, ho⟩
    · rw [elapse_of_not_sleeping hl hsleeping] at hl'
      exact .inl ⟨l', hl', ho⟩

/-- **An outcome was there before the move, or a pause ended during it.** -/
theorem returns_of_outcome {r : Registry} {m : Move} {handle : Nat} {l' : Lookup}
    {o : Lookup.Outcome} (hl' : (r.after m).lookups[handle]? = some l')
    (ho : l'.outcome? = some o) :
    (∃ l, r.lookups[handle]? = some l ∧ l.outcome? = some o) ∨ ∃ v, Returns r m handle v := by
  cases m with
  | start n id token => exact returns_of_outcome_start hl' ho
  | elapse k =>
    rcases returns_of_outcome_elapse hl' ho with hold | ⟨rfl, l, hl, hsleeping⟩
    · exact .inl hold
    · exact .inr ⟨_, .elapsed hl hsleeping⟩
  | command c =>
    cases hperf : r.perform c with
    | error f =>
      rw [after, next_of_refused hperf] at hl'
      exact .inl ⟨l', hl', ho⟩
    | ok e =>
      rw [after, next_of_perform hperf] at hl'
      cases performed_of_perform hperf with
      | opened _ => exact .inl ⟨l', hl', ho⟩
      | appointed _ _ => exact .inl ⟨l', hl', ho⟩
      | acted _ _ => exact .inl ⟨l', hl', ho⟩
      | @launched n id token i s a hn hs ha _ =>
        have hstart : (r.after (.start n id token)).lookups[handle]? = some l' := by
          rw [after, start?_of_attach hn hs ha]
          exact hl'
        rcases returns_of_outcome_start hstart ho with hold | ⟨v, hv⟩
        · exact .inl hold
        · exact .inr ⟨v, .looked hv⟩
      | @satOut n id token i s a hn hs ha hshort =>
        have hafter : (launch a i s id).registry = r.after (.start n id token) := by
          rw [after, start?_of_attach hn hs ha]
          rfl
        rw [hafter] at hl'
        rcases returns_of_outcome_elapse hl' ho with ⟨l, hl, hlo⟩ | ⟨rfl, l, hl, hsleeping⟩
        · rcases returns_of_outcome_start hl hlo with hold | ⟨v, hv⟩
          · exact .inl hold
          · exact .inr ⟨v, .looked hv⟩
        · have hsits : r.sitsOut n = true := by
            rw [sitsOut_eq hn hs]
            exact decide_eq_true hshort
          exact .inr ⟨_, .satOut hsits hl hsleeping⟩
      | stopped hn hasked hlistens =>
        rw [getElem?_requestStop] at hl'
        obtain ⟨l, hl, hl'⟩ := Option.map_eq_some_iff.mp hl'
        split at hl'
        · next hwakes => exact .inr ⟨_, .stopped hn hasked hlistens hl hwakes⟩
        · cases hl'
          exact .inl ⟨l, hl, ho⟩
      | released hn hl hgated =>
        rcases getElem?_of_setLookup hl' with ⟨rfl, _⟩ | hold
        · exact .inr ⟨_, .released hn hl hgated⟩
        · exact .inl ⟨l', hold, ho⟩
      | @collected n i l o' hn hl hended =>
        rcases getElem?_of_setLookup hl' with ⟨rfl, rfl⟩ | hold
        · refine .inl ⟨l, hl, ?_⟩
          rw [Lookup.outcome?_of_ended hended]
          exact ho
        · exact .inl ⟨l', hold, ho⟩

end Registry

end Roster
