/-!
# Attempts

Work on a state that may break off. The state is kept apart from the result, so what an attempt has
done by the time it breaks off stays done: nothing is taken back.
-/

namespace Roster

/-- Work on a state `σ` that ends with an `α` or breaks off with an `ε`. -/
abbrev Attempt (σ ε α : Type) := ExceptT ε (StateM σ) α

namespace Attempt

variable {σ ε δ α β : Type}

/-- What an attempt comes to when it is made on a state, and the state that it leaves. -/
def on (x : Attempt σ ε α) (s : σ) : Except ε α × σ := x.run.run s

/-- Goes on with what a check found, or breaks off with its fault. -/
def allow (fault : δ → ε) : Except δ α → Attempt σ ε α
  | .ok a => pure a
  | .error f => throw (fault f)

def need (x : Option α) (missing : ε) : Attempt σ ε α :=
  match x with
  | some a => pure a
  | none => throw missing

def demand (p : Prop) [Decidable p] (otherwise : ε) : Attempt σ ε Unit :=
  if p then pure () else throw otherwise

/-! ### What an attempt comes to -/

@[simp] theorem on_pure (a : α) (s : σ) : on (pure a : Attempt σ ε α) s = (.ok a, s) := rfl

@[simp] theorem on_throw (e : ε) (s : σ) : on (throw e : Attempt σ ε α) s = (.error e, s) := rfl

@[simp] theorem on_modify (f : σ → σ) (s : σ) :
    on (modify f : Attempt σ ε Unit) s = (.ok (), f s) := rfl

/-- The second attempt is made on the state that the first leaves, unless that broke off. -/
@[simp] theorem on_bind (x : Attempt σ ε α) (f : α → Attempt σ ε β) (s : σ) :
    on (x >>= f) s =
      match on x s with
      | (.ok a, s') => on (f a) s'
      | (.error e, s') => (.error e, s') := by
  simp only [on, ExceptT.run_bind, StateT.run_bind]
  rcases x.run.run s with ⟨_ | _, _⟩
  · rfl
  · rfl

@[simp] theorem on_map (f : α → β) (x : Attempt σ ε α) (s : σ) :
    on (f <$> x) s =
      match on x s with
      | (.ok a, s') => (.ok (f a), s')
      | (.error e, s') => (.error e, s') := by
  rw [← bind_pure_comp, on_bind]
  rfl

@[simp] theorem on_allow_ok (fault : δ → ε) (a : α) (s : σ) :
    on (allow fault (.ok a)) s = (.ok a, s) := rfl

@[simp] theorem on_allow_error (fault : δ → ε) (f : δ) (s : σ) :
    on (allow fault (.error f) : Attempt σ ε α) s = (.error (fault f), s) := rfl

theorem on_demand (p : Prop) [Decidable p] (otherwise : ε) (s : σ) :
    on (demand p otherwise) s = (if p then .ok () else .error otherwise, s) := by
  by_cases hp : p <;> simp [demand, hp]

end Attempt

end Roster
