import Mathlib.Data.List.Basic
import Roster.Proofs.Log.Wording

/-!
# Reading changes back from the log

Three kinds of event are changes of a directory: a user was stored, one was overwritten, one was
removed. Their messages can be read back although an email may be any text, brackets and digits
included: the id ends at the first character that is no digit, and the email at the last bracket.

The reader accepts exactly what is written for a change,

    read?_eq_some_iff : read? text = some e ↔ e.isChange ∧ e.text = text

so no two changes share a wording, and no other event is worded like a change
(`read?_text`). Over a whole log, `changes` are the changes that were reported (`changes_record`).
-/

namespace Roster.Log

namespace Event

def isChange : Event → Bool
  | stored _ _ | overwrote _ _ | removed _ => true
  | _ => false

/-! ## The reader -/

def behind? (opening text : String) : Option (List Char) :=
  opening.toList.isPrefixOf? text.toList

/-- The id that a text begins with, and what follows it. An id is written without leading zeros and
fits into a 64-bit word. -/
def readId? (cs : List Char) : Option (UInt64 × List Char) :=
  let digits := String.ofList (cs.takeWhile Char.isDigit)
  (digits.toNat?.map UInt64.ofNat).bind fun id =>
    if decimal id = digits then some (id, cs.dropWhile Char.isDigit) else none

def readEmail? : List Char → Option String
  | ' ' :: '(' :: cs =>
    if cs.getLast? = some ')' then some (String.ofList cs.dropLast) else none
  | _ => none

def readPut? (opening : String) (make : UInt64 → String → Event) (text : String) :
    Option Event :=
  (behind? opening text).bind fun cs =>
    (readId? cs).bind fun (id, rest) => (readEmail? rest).map (make id)

def readRemoval? (opening : String) (text : String) : Option Event :=
  (behind? opening text).bind fun cs =>
    match readId? cs with
    | some (id, []) => some (removed id)
    | _ => none

/-- The change that a text tells of. -/
def read? (text : String) : Option Event :=
  (readPut? "UserRepository::add: stored user " stored text).or
    ((readPut? "UserRepository::add: overwrote user " overwrote text).or
      (readRemoval? "UserRepository::erase: removed user " text))

/-! ## The parts -/

theorem behind?_eq_some_iff {opening text : String} {cs : List Char} :
    behind? opening text = some cs ↔ text.toList = opening.toList ++ cs := by
  rw [behind?, List.isPrefixOf?_eq_some_iff_append_eq]
  exact eq_comm

theorem isDigit_of_mem_decimal {id : UInt64} {c : Char} (h : c ∈ (decimal id).toList) :
    c.isDigit = true := by
  have hdigits : (decimal id).toList = Nat.toDigits 10 id.toNat := Nat.toList_repr
  rw [hdigits] at h
  exact Nat.isDigit_of_mem_toDigits (by decide) (by decide) h

/-- The id ends where the digits do. -/
theorem readId?_decimal_append (id : UInt64) {rest : List Char}
    (hrest : rest.takeWhile Char.isDigit = []) :
    readId? ((decimal id).toList ++ rest) = some (id, rest) := by
  have hall : ∀ c ∈ (decimal id).toList, c.isDigit = true := fun _ h => isDigit_of_mem_decimal h
  have htake : ((decimal id).toList ++ rest).takeWhile Char.isDigit = (decimal id).toList := by
    rw [List.takeWhile_append_of_pos hall, hrest, List.append_nil]
  have hdrop : ((decimal id).toList ++ rest).dropWhile Char.isDigit = rest := by
    have hsplit := List.takeWhile_append_dropWhile (p := Char.isDigit) (l := rest)
    rw [hrest, List.nil_append] at hsplit
    rw [List.dropWhile_append_of_pos hall, hsplit]
  have hread : (decimal id).toNat? = some id.toNat := Nat.toNat?_repr id.toNat
  rw [readId?, htake, hdrop, String.ofList_toList, hread]
  simp

theorem eq_append_of_readId? {cs rest : List Char} {id : UInt64}
    (h : readId? cs = some (id, rest)) : cs = (decimal id).toList ++ rest := by
  obtain ⟨id', _, h⟩ := Option.bind_eq_some_iff.mp h
  split at h
  · next hdigits =>
    cases h
    rw [hdigits, String.toList_ofList, List.takeWhile_append_dropWhile]
  · cases h

theorem readEmail?_eq_some_iff {cs : List Char} {email : String} :
    readEmail? cs = some email ↔ cs = " (".toList ++ email.toList ++ ")".toList := by
  constructor
  · intro h
    unfold readEmail? at h
    split at h
    · next cs =>
      split at h
      · next hlast =>
        cases h
        show ' ' :: '(' :: cs = ' ' :: '(' :: ((String.ofList cs.dropLast).toList ++ [')'])
        rw [String.toList_ofList, List.dropLast_append_getLast? _ hlast]
      · cases h
    · cases h
  · rintro rfl
    show (if (email.toList ++ [')']).getLast? = some ')' then
      some (String.ofList (email.toList ++ [')']).dropLast) else none) = some email
    rw [List.getLast?_concat, if_pos rfl, List.dropLast_concat, String.ofList_toList]

/-- An entry is read from exactly the text that is written for it. -/
theorem readPut?_eq_some_iff {opening text : String} {make : UInt64 → String → Event}
    {e : Event} :
    readPut? opening make text = some e ↔
      ∃ id email, make id email = e ∧ opening ++ decimal id ++ " (" ++ email ++ ")" = text := by
  constructor
  · intro h
    obtain ⟨cs, hcs, h⟩ := Option.bind_eq_some_iff.mp h
    obtain ⟨⟨id, rest⟩, hid, h⟩ := Option.bind_eq_some_iff.mp h
    obtain ⟨email, hemail, rfl⟩ := Option.map_eq_some_iff.mp h
    refine ⟨id, email, rfl, ?_⟩
    rw [← String.toList_inj, behind?_eq_some_iff.mp hcs, eq_append_of_readId? hid,
      readEmail?_eq_some_iff.mp hemail]
    simp only [String.toList_append, List.append_assoc]
  · rintro ⟨id, email, rfl, rfl⟩
    have hbehind : behind? opening (opening ++ decimal id ++ " (" ++ email ++ ")") =
        some ((decimal id).toList ++ (" (".toList ++ email.toList ++ ")".toList)) := by
      rw [behind?_eq_some_iff]
      simp only [String.toList_append, List.append_assoc]
    rw [readPut?, hbehind, Option.bind_some, readId?_decimal_append id rfl, Option.bind_some]
    show (readEmail? _).map (make id) = some (make id email)
    rw [readEmail?_eq_some_iff.mpr rfl, Option.map_some]

theorem readRemoval?_eq_some_iff {opening text : String} {e : Event} :
    readRemoval? opening text = some e ↔
      ∃ id, removed id = e ∧ opening ++ decimal id = text := by
  constructor
  · intro h
    obtain ⟨cs, hcs, h⟩ := Option.bind_eq_some_iff.mp h
    split at h
    · next id hid =>
      cases h
      refine ⟨id, rfl, ?_⟩
      rw [← String.toList_inj, behind?_eq_some_iff.mp hcs, eq_append_of_readId? hid,
        List.append_nil, String.toList_append]
    · cases h
  · rintro ⟨id, rfl, rfl⟩
    have hbehind : behind? opening (opening ++ decimal id) = some ((decimal id).toList ++ []) := by
      rw [behind?_eq_some_iff, String.toList_append, List.append_nil]
    rw [readRemoval?, hbehind, Option.bind_some, readId?_decimal_append id rfl]

/-! ## Openings -/

/-- The words that a message begins with, up to what depends on the event. -/
def opening : Event → String
  | stored _ _ => "UserRepository::add: stored user "
  | overwrote _ _ => "UserRepository::add: overwrote user "
  | removed _ => "UserRepository::erase: removed user "
  | lookupStarted _ _ | lookupCancelled _ => "UserRepository::getByIdAsync: lookup "
  | idTaken _ => "UserService::createUser: id "
  | enrolled _ => "UserService::createUser: created user "
  | starting => "USTORE! Starting..."
  | lookupFailed _ => "Async lookup failed: "
  | counted _ => "Stored users: "

def Opens (opening text : String) : Prop := ∃ rest, text = opening ++ rest

theorem Opens.append {opening text : String} (h : Opens opening text) (more : String) :
    Opens opening (text ++ more) := by
  obtain ⟨rest, rfl⟩ := h
  exact ⟨rest ++ more, String.append_assoc⟩

theorem opens_text (e : Event) : Opens e.opening e.text := by
  cases e with
  | stored id email => exact .append (.append (.append ⟨decimal id, rfl⟩ " (") email) ")"
  | overwrote id email => exact .append (.append (.append ⟨decimal id, rfl⟩ " (") email) ")"
  | removed id => exact ⟨decimal id, rfl⟩
  | lookupStarted id delay =>
    exact .append (.append (.append ⟨decimal id, rfl⟩ " after ") (toString delay)) "ms"
  | lookupCancelled id => exact .append ⟨decimal id, rfl⟩ " cancelled"
  | idTaken id => exact .append ⟨decimal id, rfl⟩ " already taken, overwriting"
  | enrolled user =>
    exact .append (.append (.append (.append ⟨decimal user.id, rfl⟩ " name=") user.name)
      " email=") user.email
  | starting => exact ⟨"", rfl⟩
  | lookupFailed what => exact ⟨what, rfl⟩
  | counted n => exact ⟨toString n, rfl⟩

/-- Whether neither opening begins with the other, so that no text has both. -/
def Clash (o p : String) : Prop := ¬ o.toList <+: p.toList ∧ ¬ p.toList <+: o.toList

instance (o p : String) : Decidable (Clash o p) := inferInstanceAs (Decidable (_ ∧ _))

theorem Opens.not_clash {o p text : String} (ho : Opens o text) (hp : Opens p text) :
    ¬ Clash o p := by
  obtain ⟨a, ha⟩ := ho
  obtain ⟨b, hb⟩ := hp
  have hsame : o.toList ++ a.toList = p.toList ++ b.toList := by
    rw [← String.toList_append, ← String.toList_append, ← ha, ← hb]
  intro hclash
  rcases List.append_eq_append_iff.mp hsame with ⟨c, hc, _⟩ | ⟨c, hc, _⟩
  · exact hclash.1 ⟨c, hc.symm⟩
  · exact hclash.2 ⟨c, hc.symm⟩

theorem readPut?_of_clash {o : String} {f : Event} (h : Clash o f.opening)
    (make : UInt64 → String → Event) : readPut? o make f.text = none := by
  rw [Option.eq_none_iff_forall_ne_some]
  intro e he
  obtain ⟨id, email, _, htext⟩ := readPut?_eq_some_iff.mp he
  have hopens : Opens o f.text := by
    rw [← htext]
    exact .append (.append (.append ⟨decimal id, rfl⟩ " (") email) ")"
  exact hopens.not_clash (opens_text f) h

theorem readRemoval?_of_clash {o : String} {f : Event} (h : Clash o f.opening) :
    readRemoval? o f.text = none := by
  rw [Option.eq_none_iff_forall_ne_some]
  intro e he
  obtain ⟨id, _, htext⟩ := readRemoval?_eq_some_iff.mp he
  exact Opens.not_clash ⟨decimal id, htext.symm⟩ (opens_text f) h

/-! ## Reading and writing -/

/-- **A text tells of a change exactly when it is worded like that change.** -/
theorem read?_eq_some_iff {text : String} {e : Event} :
    read? text = some e ↔ e.isChange = true ∧ e.text = text := by
  rw [read?, Option.or_eq_some_iff, Option.or_eq_some_iff, readPut?_eq_some_iff,
    readPut?_eq_some_iff, readRemoval?_eq_some_iff]
  constructor
  · rintro (⟨id, email, rfl, rfl⟩ | ⟨_, ⟨id, email, rfl, rfl⟩ | ⟨_, id, rfl, rfl⟩⟩)
    · exact ⟨rfl, rfl⟩
    · exact ⟨rfl, rfl⟩
    · exact ⟨rfl, rfl⟩
  · rintro ⟨hchange, rfl⟩
    -- The readers that come first must refuse the text, since it opens in another way.
    have hstored : Clash "UserRepository::add: stored user "
        "UserRepository::add: overwrote user " := by decide
    have hadded : Clash "UserRepository::add: stored user "
        "UserRepository::erase: removed user " := by decide
    have hoverwrote : Clash "UserRepository::add: overwrote user "
        "UserRepository::erase: removed user " := by decide
    cases e with
    | stored id email => exact .inl ⟨id, email, rfl, rfl⟩
    | overwrote id email =>
      have hfirst := readPut?_of_clash (f := overwrote id email) hstored stored
      exact .inr ⟨hfirst, .inl ⟨id, email, rfl, rfl⟩⟩
    | removed id =>
      have hfirst := readPut?_of_clash (f := removed id) hadded stored
      have hsecond := readPut?_of_clash (f := removed id) hoverwrote overwrote
      exact .inr ⟨hfirst, .inr ⟨hsecond, id, rfl, rfl⟩⟩
    | _ => cases hchange

/-- No other event opens like a change. -/
theorem clash_of_not_change {f : Event} (h : f.isChange = false) :
    Clash "UserRepository::add: stored user " f.opening ∧
      Clash "UserRepository::add: overwrote user " f.opening ∧
      Clash "UserRepository::erase: removed user " f.opening := by
  have hmem : f.opening ∈ ["UserRepository::getByIdAsync: lookup ", "UserService::createUser: id ",
      "UserService::createUser: created user ", "USTORE! Starting...", "Async lookup failed: ",
      "Stored users: "] := by
    cases f <;> simp_all [opening, isChange]
  generalize f.opening = o at hmem
  revert o
  decide

/-- **A message tells of a change exactly when it was logged for that change.** -/
theorem read?_text (e : Event) : read? e.text = if e.isChange then some e else none := by
  cases h : e.isChange with
  | true => exact read?_eq_some_iff.mpr ⟨h, rfl⟩
  | false =>
    obtain ⟨hstored, hoverwrote, hremoved⟩ := clash_of_not_change h
    rw [read?, readPut?_of_clash hstored, readPut?_of_clash hoverwrote,
      readRemoval?_of_clash hremoved]
    rfl

theorem level_of_isChange {e : Event} (h : e.isChange = true) : e.level = .debug := by
  cases e <;> first | rfl | cases h

end Event

/-! ## Whole logs -/

/-- The changes that the debug messages of a log tell of, oldest first. -/
def changes (log : List Message) : List Event :=
  (log.filter (·.level = .debug)).filterMap fun m => Event.read? m.text

@[simp] theorem changes_append (xs ys : List Message) :
    changes (xs ++ ys) = changes xs ++ changes ys := by
  rw [changes, List.filter_append, List.filterMap_append]
  rfl

theorem changes_record_singleton {log : Setup} {logger : Logger}
    (hactive : log.active = some logger) (hdebug : logger.level ≤ .debug) (e : Event) :
    changes (log.record [e]) = if e.isChange then [e] else [] := by
  have htext : Event.read? e.message.text = if e.isChange then some e else none :=
    Event.read?_text e
  rw [Setup.record_of_active hactive, changes]
  cases h : e.isChange with
  | true =>
    have hlevel : e.message.level = .debug := Event.level_of_isChange h
    simp [hlevel, hdebug, htext, h]
  | false =>
    rw [if_neg Bool.false_ne_true, List.filterMap_eq_nil_iff]
    intro m hm
    have hm' : m = e.message := by
      simpa using (List.mem_filter.mp (List.mem_filter.mp hm).1).1
    rw [hm', htext, h]
    rfl

/-- **A log that holds the debug messages tells exactly the changes that were reported.** -/
theorem changes_record {log : Setup} {logger : Logger} (hactive : log.active = some logger)
    (hdebug : logger.level ≤ .debug) (events : List Event) :
    changes (log.record events) = events.filter Event.isChange := by
  induction events with
  | nil => rfl
  | cons e events ih =>
    have hsplit : log.record (e :: events) = log.record [e] ++ log.record events := by
      simp only [Setup.record, List.map_cons, List.map_nil, ← List.filter_append,
        List.singleton_append]
    rw [hsplit, changes_append, changes_record_singleton hactive hdebug, ih, List.filter_cons]
    split <;> rfl

end Roster.Log
