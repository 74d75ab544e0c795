import Mathlib.Data.List.Infix
import Roster.Proofs.Lookup.Requests

/-!
# Targets

A target reaches a store, directly or as one of its registrars, or it reaches none. What is asked of
it concerns that store alone:

* an action puts another directory into the store that is reached (`perform_of_reaches`), and
  without such a store it is refused (`perform_of_unreached`);
* what is answered and reported is up to the directory of that store, so two registries with the
  same targets agree on it as soon as they agree on that directory (`SameTargets.reply` and the
  lemmas behind it);
* a target goes on reaching the store that it reaches (`Reaches.after`).
-/

namespace Roster.Registry

/-! ## The directory of a store -/

def setDirectory (r : Registry) (n : Nat) (d : Directory) : Registry :=
  { r with stores := r.stores.modify n ({ · with directory := d }) }

theorem setDirectory_setDirectory (r : Registry) (n : Nat) (d d' : Directory) :
    (r.setDirectory n d).setDirectory n d' = r.setDirectory n d' := by
  simp only [setDirectory, List.modify_modify_eq]
  rfl

theorem directory_setDirectory {r : Registry} {n : Nat} (hn : n < r.stores.length)
    (d : Directory) : (r.setDirectory n d).directory n = d := by
  rw [directory, setDirectory, List.getElem?_modify_eq, List.getElem?_eq_getElem hn]
  rfl

theorem Reaches.setDirectory {r : Registry} {t : Target} {n : Nat} (h : r.Reaches t n) (k : Nat)
    (d : Directory) : (r.setDirectory k d).Reaches t n := by
  refine ⟨?_, ?_⟩
  · rw [← h.1]
    cases t <;> rfl
  · rw [Registry.setDirectory, List.length_modify]
    exact h.2

theorem setDirectory_self (r : Registry) (n : Nat) : r.setDirectory n (r.directory n) = r := by
  have hstores : r.stores.modify n ({ · with directory := r.directory n }) = r.stores := by
    apply List.ext_getElem?
    intro i
    rw [List.getElem?_modify]
    by_cases hi : n = i
    · subst hi
      rw [directory]
      cases r.stores[n]? <;> simp
    · simp [hi]
  rw [setDirectory, hstores]

/-- Another directory in a store leaves the other stores as they are. -/
theorem directory_setDirectory_of_ne (r : Registry) {n k : Nat} (h : n ≠ k) (d : Directory) :
    (r.setDirectory n d).directory k = r.directory k := by
  rw [directory, setDirectory, List.getElem?_modify_ne _ _ h, directory]

theorem setDirectory_comm (r : Registry) {n k : Nat} (h : n ≠ k) (d d' : Directory) :
    (r.setDirectory n d).setDirectory k d' = (r.setDirectory k d').setDirectory n d := by
  simp only [setDirectory]
  rw [List.modify_modify_ne _ _ _ h]

/-! ## What an action comes to -/

/-- **An action is answered and reported by the directory of the store that is reached**, and puts
another directory in its place. -/
theorem perform_of_reaches {r : Registry} {t : Target} {n : Nat} (h : r.Reaches t n)
    (a : Action) :
    r.perform (.act t a) = .ok
      ⟨r.setDirectory n ((r.directory n).after a), .answered ((r.directory n).answer a),
        (r.directory n).events a⟩ := by
  obtain ⟨hn, hlen⟩ := h
  have hs : r.stores[n]? = some r.stores[n] := List.getElem?_eq_getElem hlen
  have hdir : r.directory n = r.stores[n].directory := by rw [directory, hs]; rfl
  rw [perform_act hn hs a, setDirectory, hdir, List.modify_eq_set_getElem?,
    List.modify_eq_set_getElem?, hs]
  rfl

theorem next_act {r : Registry} {t : Target} {n : Nat} (h : r.Reaches t n) (a : Action) :
    r.next (.act t a) = r.setDirectory n ((r.directory n).after a) :=
  next_of_perform (perform_of_reaches h a)

theorem after_act {r : Registry} {t : Target} {n : Nat} (h : r.Reaches t n) (a : Action) :
    r.after (.command (.act t a)) = r.setDirectory n ((r.directory n).after a) :=
  next_act h a

theorem events_act {r : Registry} {t : Target} {n : Nat} (h : r.Reaches t n) (a : Action) :
    r.events (.act t a) = (r.directory n).events a :=
  events_of_perform (perform_of_reaches h a)

theorem sizeAfter?_act {r : Registry} {t : Target} {n : Nat} (h : r.Reaches t n) (a : Action) :
    r.sizeAfter? (.act t a) = some ((r.directory n).after a).size := by
  rw [sizeAfter?, concerns?, h.1, Option.bind_some, next_act h, setDirectory,
    List.getElem?_modify_eq, List.getElem?_eq_getElem h.2]
  rfl

theorem names?_of_reaches {r : Registry} {t : Target} {n : Nat} (h : r.Reaches t n) (a : Action) :
    r.names? (.act t a) = ((r.directory n).about? a).map (n, ·) := by
  rw [names?, h.1, Option.bind_some, directory, List.getElem?_eq_getElem h.2]
  rfl

def missing (r : Registry) (t : Target) : Refusal :=
  if (r.storeNumber? t).isSome then .noStore else t.refusal

section

variable {r : Registry} {t : Target} (h : ∀ n, ¬ r.Reaches t n)

include h

theorem getElem?_of_unreached {n : Nat} (hn : r.storeNumber? t = some n) : r.stores[n]? = none :=
  List.getElem?_eq_none (Nat.le_of_not_lt fun hlen => h n ⟨hn, hlen⟩)

theorem perform_of_unreached (a : Action) :
    r.perform (.act t a) = .error (.refused (r.missing t)) := by
  cases hn : r.storeNumber? t with
  | none =>
    rw [perform_act_of_no_target hn, missing, hn]
    rfl
  | some n =>
    rw [perform_act_of_no_store hn (getElem?_of_unreached h hn), missing, hn]
    rfl

theorem next_of_unreached (a : Action) : r.next (.act t a) = r :=
  next_of_refused (perform_of_unreached h a)

theorem sizeAfter?_of_unreached (a : Action) : r.sizeAfter? (.act t a) = none := by
  rw [sizeAfter?, concerns?, next_of_unreached h]
  cases hn : r.storeNumber? t with
  | none => rfl
  | some n => rw [Option.bind_some, getElem?_of_unreached h hn, Option.map_none]

theorem names?_of_unreached (a : Action) : r.names? (.act t a) = none := by
  rw [names?]
  cases hn : r.storeNumber? t with
  | none => rfl
  | some n => rw [Option.bind_some, getElem?_of_unreached h hn, Option.bind_none]

end

/-! ## Registries with the same targets -/

/-- Two registries with as many stores and with the same registrars. -/
structure SameTargets (r r' : Registry) : Prop where
  length : r.stores.length = r'.stores.length
  registrars : r.registrars = r'.registrars

theorem sameTargets_setDirectory (r : Registry) (n : Nat) (d : Directory) :
    r.SameTargets (r.setDirectory n d) :=
  ⟨(List.length_modify _ _ _).symm, rfl⟩

/-- An action leaves the targets what they are. -/
theorem sameTargets_act (r : Registry) (t : Target) (a : Action) :
    r.SameTargets (r.next (.act t a)) := by
  by_cases hreach : ∃ n, r.Reaches t n
  · obtain ⟨n, hn⟩ := hreach
    rw [next_act hn]
    exact sameTargets_setDirectory r n _
  · rw [next_of_unreached (not_exists.mp hreach)]
    exact ⟨rfl, rfl⟩

namespace SameTargets

variable {r r' : Registry} {t : Target} {a : Action}

theorem symm (h : r.SameTargets r') : r'.SameTargets r := ⟨h.length.symm, h.registrars.symm⟩

theorem trans {r'' : Registry} (h : r.SameTargets r') (h' : r'.SameTargets r'') :
    r.SameTargets r'' :=
  ⟨h.length.trans h'.length, h.registrars.trans h'.registrars⟩

theorem storeNumber? (h : r.SameTargets r') (t : Target) :
    r.storeNumber? t = r'.storeNumber? t := by
  cases t with
  | store n => rfl
  | registrar n => exact congrArg (under? · n) h.registrars

theorem reaches_iff (h : r.SameTargets r') (t : Target) (n : Nat) :
    r.Reaches t n ↔ r'.Reaches t n := by
  rw [Reaches, Reaches, h.storeNumber? t, h.length]

/-- A target reaches the same store in both, or none in either. -/
theorem cases (h : r.SameTargets r') (t : Target) :
    (∃ n, r.Reaches t n ∧ r'.Reaches t n) ∨
      ((∀ n, ¬ r.Reaches t n) ∧ (∀ n, ¬ r'.Reaches t n) ∧ r.missing t = r'.missing t) := by
  by_cases hreach : ∃ n, r.Reaches t n
  · obtain ⟨n, hn⟩ := hreach
    exact .inl ⟨n, hn, (h.reaches_iff t n).mp hn⟩
  · rw [not_exists] at hreach
    refine .inr ⟨hreach, fun n hn => hreach n ((h.reaches_iff t n).mpr hn), ?_⟩
    rw [missing, missing, h.storeNumber? t]

theorem reply (h : r.SameTargets r')
    (hanswer : ∀ n, r.Reaches t n → (r.directory n).answer a = (r'.directory n).answer a) :
    r.reply (.act t a) = r'.reply (.act t a) := by
  rcases h.cases t with ⟨n, hn, hn'⟩ | ⟨hnone, hnone', hmissing⟩
  · rw [reply_act hn, reply_act hn', hanswer n hn]
  · rw [reply_of_refused (perform_of_unreached hnone a),
      reply_of_refused (perform_of_unreached hnone' a), hmissing]

theorem events (h : r.SameTargets r')
    (hevents : ∀ n, r.Reaches t n → (r.directory n).events a = (r'.directory n).events a) :
    r.events (.act t a) = r'.events (.act t a) := by
  rcases h.cases t with ⟨n, hn, hn'⟩ | ⟨hnone, hnone', _⟩
  · rw [events_act hn, events_act hn', hevents n hn]
  · rw [events_of_refused (perform_of_unreached hnone a),
      events_of_refused (perform_of_unreached hnone' a)]

theorem sizeAfter? (h : r.SameTargets r')
    (hdir : ∀ n, r.Reaches t n → r.directory n = r'.directory n) :
    r.sizeAfter? (.act t a) = r'.sizeAfter? (.act t a) := by
  rcases h.cases t with ⟨n, hn, hn'⟩ | ⟨hnone, hnone', _⟩
  · rw [sizeAfter?_act hn, sizeAfter?_act hn', hdir n hn]
  · rw [sizeAfter?_of_unreached hnone, sizeAfter?_of_unreached hnone']

theorem names? (h : r.SameTargets r')
    (hdir : ∀ n, r.Reaches t n → r.directory n = r'.directory n) :
    r.names? (.act t a) = r'.names? (.act t a) := by
  rcases h.cases t with ⟨n, hn, hn'⟩ | ⟨hnone, hnone', _⟩
  · rw [names?_of_reaches hn, names?_of_reaches hn', hdir n hn]
  · rw [names?_of_unreached hnone, names?_of_unreached hnone']

end SameTargets

/-! ## Targets stay what they are -/

/-- A registrar keeps the store it was appointed for. -/
theorem registrars_after (r : Registry) (m : Move) :
    r.registrars <+: (r.after m).registrars := by
  cases m with
  | elapse handle =>
    show _ <+: (r.elapse handle).1.registrars
    rw [registrars_elapse]
  | start n id token =>
    rw [after]
    cases hstart : r.start? n id token with
    | none => exact List.prefix_rfl
    | some e =>
      obtain ⟨i, s, a, _, _, ha, rfl⟩ := attach_of_start? hstart
      rw [Option.elim_some, registrars_launch ha]
  | command c =>
    show _ <+: (r.next c).registrars
    cases hperf : r.perform c with
    | error f => rw [next_of_refused hperf]
    | ok e =>
      rw [next_of_perform hperf]
      cases performed_of_perform hperf with
      | opened _ => exact List.prefix_rfl
      | appointed _ _ => exact List.prefix_append _ _
      | acted _ _ => exact List.prefix_rfl
      | launched _ _ ha _ => rw [registrars_launch ha]
      | satOut _ _ ha _ => rw [registrars_elapse, registrars_launch ha]
      | stopped _ _ _ => exact List.prefix_rfl
      | released _ _ _ => exact List.prefix_rfl
      | collected _ _ _ => exact List.prefix_rfl

theorem under?_of_prefix {α : Type} {xs ys : List α} (h : xs <+: ys) {n : Int} {x : α}
    (hx : under? xs n = some x) : under? ys n = some x := by
  obtain ⟨i, hi, hget⟩ := Option.bind_eq_some_iff.mp hx
  obtain ⟨hlt, hxi⟩ := List.getElem?_eq_some_iff.mp hget
  rw [under?, hi, ← hxi]
  exact List.prefix_iff_getElem?.mp h i hlt

/-- A store that can be reached can be reached ever after. -/
theorem Reaches.after {r : Registry} {t : Target} {n : Nat} (h : r.Reaches t n) (m : Move) :
    (r.after m).Reaches t n := by
  obtain ⟨hn, hlen⟩ := h
  refine ⟨?_, ?_⟩
  · cases t with
    | store k => exact hn
    | registrar k => exact under?_of_prefix (registrars_after r m) hn
  · have hpauses := (leads_after r m).pauses.length_le
    rw [pauses, pauses, List.length_map, List.length_map] at hpauses
    exact Nat.lt_of_lt_of_le hlen hpauses

end Roster.Registry
