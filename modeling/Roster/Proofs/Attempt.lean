import Roster.Attempt

/-!
# Attempts that break off cleanly

An attempt that breaks off leaves whatever it has done so far. It is `Clean` if that is nothing:
when it breaks off, the state is the one that it was made on. Two simpler properties lead there.

* `Looks`: the attempt only looks at the state, whether it breaks off or not.
* `Sure`: the attempt never breaks off.

What looks first and is clean after that is clean (`Looks.bind`), and what is clean stays so if only
sure steps follow (`Clean.bind`). So an attempt is clean if all its checks come before its first
change.
-/

namespace Roster.Attempt

variable {σ ε δ α β : Type}

def Looks (x : Attempt σ ε α) : Prop := ∀ s, (on x s).2 = s

def Sure (x : Attempt σ ε α) : Prop := ∀ s, ∃ a, (on x s).1 = .ok a

def Clean (x : Attempt σ ε α) : Prop := ∀ s e, (on x s).1 = .error e → (on x s).2 = s

/-! ## Single steps -/

theorem looks_pure (a : α) : Looks (pure a : Attempt σ ε α) := fun _ => rfl

theorem looks_allow (fault : δ → ε) (x : Except δ α) :
    Looks (allow fault x : Attempt σ ε α) := by
  intro s
  cases x <;> rfl

theorem looks_need (x : Option α) (missing : ε) : Looks (need x missing : Attempt σ ε α) := by
  intro s
  cases x <;> rfl

theorem looks_demand (p : Prop) [Decidable p] (otherwise : ε) :
    Looks (demand p otherwise : Attempt σ ε Unit) := by
  intro s
  rw [on_demand]

theorem sure_pure (a : α) : Sure (pure a : Attempt σ ε α) := fun _ => ⟨a, rfl⟩

theorem sure_modify (f : σ → σ) : Sure (modify f : Attempt σ ε Unit) := fun _ => ⟨(), rfl⟩

/-! ## One step after another -/

variable {x : Attempt σ ε α} {f : α → Attempt σ ε β}

theorem on_bind_of_ok {s : σ} {a : α} (h : (on x s).1 = .ok a) :
    on (x >>= f) s = on (f a) (on x s).2 := by
  rw [on_bind, show on x s = (.ok a, (on x s).2) from Prod.ext h rfl]

theorem on_bind_of_error {s : σ} {e : ε} (h : (on x s).1 = .error e) :
    on (x >>= f) s = (.error e, (on x s).2) := by
  rw [on_bind, show on x s = (.error e, (on x s).2) from Prod.ext h rfl]

theorem Sure.bind (hx : Sure x) (hf : ∀ a, Sure (f a)) : Sure (x >>= f) := by
  intro s
  obtain ⟨a, ha⟩ := hx s
  rw [on_bind_of_ok ha]
  exact hf a _

theorem Sure.clean (hx : Sure x) : Clean x := by
  intro s e he
  obtain ⟨a, ha⟩ := hx s
  rw [ha] at he
  cases he

theorem Looks.bindLooks (hx : Looks x) (hf : ∀ a, Looks (f a)) : Looks (x >>= f) := by
  intro s
  cases hr : (on x s).1 with
  | error e =>
    rw [on_bind_of_error hr]
    exact hx s
  | ok a =>
    rw [on_bind_of_ok hr, hx s]
    exact hf a s

/-- After a step that only looks, the state is still the one at the start. -/
theorem Looks.bind (hx : Looks x) (hf : ∀ a, Clean (f a)) : Clean (x >>= f) := by
  intro s e he
  cases hr : (on x s).1 with
  | error e' =>
    rw [on_bind_of_error hr]
    exact hx s
  | ok a =>
    rw [on_bind_of_ok hr, hx s] at he ⊢
    exact hf a s e he

/-- Once nothing can fail any more, the state may change. -/
theorem Clean.bind (hx : Clean x) (hf : ∀ a, Sure (f a)) : Clean (x >>= f) := by
  intro s e he
  cases hr : (on x s).1 with
  | error e' =>
    rw [on_bind_of_error hr]
    exact hx s e' hr
  | ok a =>
    rw [on_bind_of_ok hr] at he
    obtain ⟨b, hb⟩ := hf a (on x s).2
    rw [hb] at he
    cases he

theorem looks_forM {γ : Type} {g : γ → Attempt σ ε Unit} (hg : ∀ c, Looks (g c)) (cs : List γ) :
    Looks (forM cs g) := by
  induction cs with
  | nil => exact looks_pure ()
  | cons c cs ih => exact (hg c).bindLooks fun _ => ih

end Roster.Attempt
