import Roster.Directory.Action

/-!
# Exchanges with a directory

An `Exchange` is an action together with what the directory answered and reported. A run of actions
leaves a list of exchanges (`Directory.exchanges`), in the order of the actions, each had with the
directory as the earlier ones left it.
-/

namespace Roster

open Log (Event)

def Action.enrolment? : Action → Option Enrolment
  | .enrol e => some e
  | .enrolRenamed e _ => some e
  | _ => none

/-- Something asked of a directory, with what was answered and reported. -/
structure Exchange where
  action : Action
  answer : Answer
  events : List Event
deriving DecidableEq

namespace Directory

def exchange (d : Directory) (a : Action) : Exchange := ⟨a, d.answer a, d.events a⟩

def exchanges (d : Directory) : List Action → List Exchange
  | [] => []
  | a :: as => d.exchange a :: (d.after a).exchanges as

@[simp] theorem afterAll_nil (d : Directory) : d.afterAll [] = d := rfl

@[simp] theorem afterAll_cons (d : Directory) (a : Action) (as : List Action) :
    d.afterAll (a :: as) = (d.after a).afterAll as := rfl

@[simp] theorem exchanges_nil (d : Directory) : d.exchanges [] = [] := rfl

@[simp] theorem exchanges_cons (d : Directory) (a : Action) (as : List Action) :
    d.exchanges (a :: as) = d.exchange a :: (d.after a).exchanges as := rfl

end Directory

end Roster
