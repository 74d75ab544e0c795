import Roster.Log.Event

/-!
# Templates of messages

The wording of an event is a template: fixed parts with places between them, each place a pair of
empty braces, which are filled in turn with what the event holds.

* `fill` goes through a template once. What it puts in a place it never reads again, so a text that
  looks like a place itself comes out as it is (`fill_intercalate`).
* Every event is worded by its template, filled (`Event.text_eq_fill`).
-/

namespace Roster.Log

def place : String := "\x7b\x7d"

/-- Puts texts in the places of a template, in turn. Places that are left over stay. -/
def fillPlaces : List Char → List String → List Char
  | '\x7b' :: '\x7d' :: rest, arg :: args => arg.toList ++ fillPlaces rest args
  | c :: rest, args => c :: fillPlaces rest args
  | [], _ => []

def fill (template : String) (args : List String) : String :=
  String.ofList (fillPlaces template.toList args)

def weave : List String → List String → String
  | parts, [] => String.join parts
  | [], _ :: _ => ""
  | part :: parts, arg :: args => part ++ arg ++ weave parts args

/-! ### Filling -/

theorem fillPlaces_cons {c : Char} (hc : c ≠ '\x7b') (rest : List Char) (args : List String) :
    fillPlaces (c :: rest) args = c :: fillPlaces rest args := by
  rw [fillPlaces]
  intro _ _ _ _ hbrace
  exact absurd hbrace hc

/-- Up to the first brace a template is copied. -/
theorem fillPlaces_append {part : List Char} (hpart : '\x7b' ∉ part) (rest : List Char)
    (args : List String) : fillPlaces (part ++ rest) args = part ++ fillPlaces rest args := by
  induction part with
  | nil => rfl
  | cons c part ih =>
    rw [List.mem_cons, not_or] at hpart
    rw [List.cons_append, fillPlaces_cons (Ne.symm hpart.1), ih hpart.2, List.cons_append]

theorem fillPlaces_place (rest : List Char) (arg : String) (args : List String) :
    fillPlaces (place.toList ++ rest) (arg :: args) = arg.toList ++ fillPlaces rest args := rfl

/-- **Each text comes out as it is**, between the parts that stood around its place. Only the parts
must be free of braces; of the texts nothing is asked. -/
theorem fill_intercalate {parts args : List String} (hparts : ∀ part ∈ parts, '\x7b' ∉ part.toList)
    (hlen : parts.length = args.length + 1) :
    fill (place.intercalate parts) args = weave parts args := by
  induction args generalizing parts with
  | nil =>
    obtain ⟨part, rfl⟩ := List.length_eq_one_iff.mp hlen
    have hpart := fillPlaces_append (hparts part List.mem_cons_self) [] []
    rw [List.append_nil, show fillPlaces [] [] = [] from rfl, List.append_nil] at hpart
    rw [fill, String.intercalate_singleton, hpart, String.ofList_toList]
    simp [weave]
  | cons arg args ih =>
    obtain ⟨part, next, parts, rfl⟩ : ∃ part next tail, parts = part :: next :: tail := by
      match parts, hlen with
      | part :: next :: tail, _ => exact ⟨part, next, tail, rfl⟩
    have hrest := ih (fun p hp => hparts p (List.mem_cons_of_mem _ hp)) (Nat.succ.inj hlen)
    rw [weave, ← hrest, fill, fill, String.intercalate_cons_cons, String.toList_append,
      String.toList_append, List.append_assoc, fillPlaces_append (hparts part List.mem_cons_self),
      fillPlaces_place, String.ofList_append, String.ofList_append, String.ofList_toList,
      String.ofList_toList, String.append_assoc]

/-! ### The templates of events -/

namespace Event

/-- The fixed wording of an event, cut where something of the event goes in. -/
def parts : Event → List String
  | stored _ _ => ["UserRepository::add: stored user ", " (", ")"]
  | overwrote _ _ => ["UserRepository::add: overwrote user ", " (", ")"]
  | removed _ => ["UserRepository::erase: removed user ", ""]
  | lookupStarted _ _ => ["UserRepository::getByIdAsync: lookup ", " after ", "ms"]
  | lookupCancelled _ => ["UserRepository::getByIdAsync: lookup ", " cancelled"]
  | idTaken _ => ["UserService::createUser: id ", " already taken, overwriting"]
  | enrolled _ => ["UserService::createUser: created user ", " name=", " email=", ""]
  | starting => ["USTORE! Starting..."]
  | lookupFailed _ => ["Async lookup failed: ", ""]
  | counted _ => ["Stored users: ", ""]

def arguments : Event → List String
  | stored id email | overwrote id email => [decimal id, email]
  | removed id | lookupCancelled id | idTaken id => [decimal id]
  | lookupStarted id delay => [decimal id, toString delay]
  | enrolled user => [decimal user.id, user.name, user.email]
  | starting => []
  | lookupFailed what => [what]
  | counted n => [toString n]

def template (e : Event) : String := place.intercalate e.parts

theorem length_parts (e : Event) : e.parts.length = e.arguments.length + 1 := by
  cases e <;> rfl

theorem not_mem_of_mem_parts (e : Event) : ∀ part ∈ e.parts, '\x7b' ∉ part.toList := by
  cases e <;> simp [parts]

theorem text_eq_weave (e : Event) : e.text = weave e.parts e.arguments := by
  cases e <;> dsimp only [text, parts, arguments, weave] <;>
    simp only [String.join_cons, String.join_nil, String.append_empty, String.append_assoc]

/-- **Every message is its template, filled in turn with what the event holds.** -/
theorem text_eq_fill (e : Event) : e.text = fill e.template e.arguments := by
  rw [text_eq_weave, template, fill_intercalate e.not_mem_of_mem_parts e.length_parts]

/-- Texts go in as they are, also when they look like a place to be filled. -/
example :
    (enrolled ⟨7, "\x7b\x7d", "a@b (c)"⟩).text
      = "UserService::createUser: created user 7 name=\x7b\x7d email=a@b (c)" := by
  decide

end Event

end Roster.Log
