import Roster.Attempt
import Roster.Registry.Basic

/-!
# Errands

An errand is an attempt on a registry. It looks at the registry, changes it and reports events as it
goes along, and it may break off with a fault. What it has changed and reported by then stays.
-/

namespace Roster.Registry

open Log (Event)

/-- A registry that is being worked on, and what has been reported so far. -/
structure Desk where
  registry : Registry
  reported : List Event

abbrev Errand := Attempt Desk Fault

namespace Errand

variable {α : Type}

def look : Errand Registry := return (← get).registry

def change (f : Registry → Registry) : Errand Unit :=
  modify fun d => { d with registry := f d.registry }

def tell (events : List Event) : Errand Unit :=
  modify fun d => { d with reported := d.reported ++ events }

/-- Something that changes the registry and reports at once. -/
def undergo (f : Registry → Registry × List Event) : Errand Unit :=
  modify fun d => ⟨(f d.registry).1, d.reported ++ (f d.registry).2⟩

def need (x : Option α) (missing : Refusal) : Errand α := Attempt.need x (.refused missing)

def demand (p : Prop) [Decidable p] (otherwise : Refusal) : Errand Unit :=
  Attempt.demand p (.refused otherwise)

/-! ### What an errand comes to -/

@[simp] theorem on_look (d : Desk) : look.on d = (.ok d.registry, d) := rfl

@[simp] theorem on_change (f : Registry → Registry) (d : Desk) :
    (change f).on d = (.ok (), ⟨f d.registry, d.reported⟩) := rfl

@[simp] theorem on_tell (events : List Event) (d : Desk) :
    (tell events).on d = (.ok (), ⟨d.registry, d.reported ++ events⟩) := rfl

@[simp] theorem on_undergo (f : Registry → Registry × List Event) (d : Desk) :
    (undergo f).on d = (.ok (), ⟨(f d.registry).1, d.reported ++ (f d.registry).2⟩) := rfl

@[simp] theorem on_need_some (a : α) (missing : Refusal) (d : Desk) :
    (need (some a) missing).on d = (.ok a, d) := rfl

@[simp] theorem on_need_none (missing : Refusal) (d : Desk) :
    (need (none : Option α) missing).on d = (.error (.refused missing), d) := rfl

@[simp] theorem on_demand_of_pos {p : Prop} [Decidable p] (h : p) (otherwise : Refusal) (d : Desk) :
    (demand p otherwise).on d = (.ok (), d) := by
  simp [demand, Attempt.on_demand, h]

@[simp] theorem on_demand_of_neg {p : Prop} [Decidable p] (h : ¬ p) (otherwise : Refusal)
    (d : Desk) : (demand p otherwise).on d = (.error (.refused otherwise), d) := by
  simp [demand, Attempt.on_demand, h]

end Errand

end Roster.Registry
