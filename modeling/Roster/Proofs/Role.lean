import Roster.Proofs.Failure.Records
import Roster.Proofs.Log.Reading

/-!
# Roles read from texts

Reading a role undoes printing it and takes nothing else,

    parse_eq_ok_iff : parse text = .ok r ↔ r.name = text

so every other text is refused (`parse_eq_error_iff`), however close to a name it comes.

A text that is refused is not lost: the failure holds it behind a fixed opening, from where
`refused?` reads it back (`refused?_eq_some_iff`). So different texts are refused by different
failures (`unknown_inj`), and the text is still there after the failure has travelled as a record.
-/

namespace Roster.Role

open Log.Event (behind? behind?_eq_some_iff)

/-! ## Names -/

/-- **A text is read as a role exactly if it is that role's name.** -/
theorem parse_eq_ok_iff {text : String} {r : Role} : parse text = .ok r ↔ r.name = text := by
  constructor
  · intro h
    unfold parse at h
    split_ifs at h with hadmin hmember hguest
    · cases h
      exact hadmin.symm
    · cases h
      exact hmember.symm
    · cases h
      exact hguest.symm
  · rintro rfl
    cases r <;> rfl

/-- **A text that is no name is refused**, and in one way only. -/
theorem parse_eq_error_iff {text : String} {f : Failure} :
    parse text = .error f ↔ (∀ r : Role, r.name ≠ text) ∧ f = unknown text := by
  constructor
  · intro h
    refine ⟨?_, eq_unknown_of_parse h⟩
    intro r hr
    rw [parse_eq_ok_iff.mpr hr] at h
    cases h
  · rintro ⟨hnone, rfl⟩
    cases hparse : parse text with
    | ok r => exact absurd (parse_eq_ok_iff.mp hparse) (hnone r)
    | error f => rw [eq_unknown_of_parse hparse]

/-! ## Texts that are refused -/

/-- The text that a failure refuses as the name of a role. -/
def refused? (f : Failure) : Option String :=
  (behind? "Unknown user role: " f.what).map String.ofList

theorem refused?_eq_some_iff {f : Failure} {text : String} :
    refused? f = some text ↔ f.what = "Unknown user role: " ++ text := by
  rw [refused?, Option.map_eq_some_iff, ← String.toList_inj, String.toList_append]
  constructor
  · rintro ⟨cs, hcs, rfl⟩
    rw [behind?_eq_some_iff.mp hcs, @String.toList_ofList cs]
  · intro h
    exact ⟨text.toList, behind?_eq_some_iff.mpr h, String.ofList_toList⟩

theorem refused?_unknown (text : String) : refused? (unknown text) = some text :=
  refused?_eq_some_iff.mpr rfl

theorem unknown_inj {s t : String} : unknown s = unknown t ↔ s = t := by
  constructor
  · intro h
    have hsame : some s = some t := by rw [← refused?_unknown s, ← refused?_unknown t, h]
    exact Option.some.inj hsame
  · rintro rfl
    rfl

/-- **A text names a role or comes back.** Let a text be any, empty, with a null character in it, or
close to a name.

* It is read as a role exactly if it is the name that the role is printed with. The names are
  `Admin`, `User` and `Guest`.
* Any other text is refused by a failure about a wrong argument, with the id zero, that quotes the
  text as it is.
* The text can be read from that failure, also after the failure has travelled as a record, which
  leaves it as it was.
* So different texts are refused by different failures. -/
theorem texts_named_or_quoted :
    (∀ text r, parse text = .ok r ↔ text = r.name) ∧
    (∀ text r, parse text = .ok r ↔
      (text, r) ∈ [("Admin", admin), ("User", member), ("Guest", guest)]) ∧
    (∀ text, (∀ r : Role, text ≠ r.name) →
      parse text = .error (.ofKind .invalidArgument ("Unknown user role: " ++ text) 0)) ∧
    (∀ text f, parse text = .error f →
      refused? f = some text ∧
      Failure.ofRecord f.toRecord = f ∧ refused? (Failure.ofRecord f.toRecord) = some text) ∧
    (∀ s t f g, parse s = .error f → parse t = .error g → s ≠ t → f ≠ g) := by
  refine ⟨?_, ?_, ?_, ?_, ?_⟩
  · intro text r
    rw [parse_eq_ok_iff, eq_comm]
  · intro text r
    rw [parse_eq_ok_iff]
    cases r <;> simp [name, eq_comm]
  · intro text hnone
    exact parse_eq_error_iff.mpr ⟨fun r => Ne.symm (hnone r), rfl⟩
  · intro text f h
    obtain ⟨_, rfl⟩ := parse_eq_error_iff.mp h
    have hback : Failure.ofRecord (unknown text).toRecord = unknown text :=
      Failure.ofRecord_toRecord_ofKind .invalidArgument _ _
    rw [hback]
    exact ⟨refused?_unknown text, rfl, refused?_unknown text⟩
  · intro s t f g hf hg hne
    obtain ⟨_, rfl⟩ := parse_eq_error_iff.mp hf
    obtain ⟨_, rfl⟩ := parse_eq_error_iff.mp hg
    exact fun h => hne (unknown_inj.mp h)

/-- A name; then the empty text, a name with a null character behind it, longer and shorter than a
name, and in small letters. The two that differ in the null character alone stay apart. -/
theorem texts_named_or_quoted_near_misses :
    parse "Guest" = .ok guest ∧
    parse "" = .error (.ofKind .invalidArgument "Unknown user role: " 0) ∧
    parse "Guest\x00" = .error (.ofKind .invalidArgument "Unknown user role: Guest\x00" 0) ∧
    parse "Guests" = .error (.ofKind .invalidArgument "Unknown user role: Guests" 0) ∧
    parse "Gues" = .error (.ofKind .invalidArgument "Unknown user role: Gues" 0) ∧
    parse "guest" = .error (.ofKind .invalidArgument "Unknown user role: guest" 0) ∧
    refused? (Failure.ofRecord (unknown "Guest\x00").toRecord) = some "Guest\x00" ∧
    unknown "Gues" ≠ unknown "Gues\x00" := by
  obtain ⟨hname, _, hother, hquoted, hdiffer⟩ := texts_named_or_quoted
  have hnull : parse "Guest\x00" = .error (unknown "Guest\x00") :=
    hother _ (by intro r; cases r <;> decide)
  have hshort : parse "Gues" = .error (unknown "Gues") :=
    hother _ (by intro r; cases r <;> decide)
  have hshortNull : parse "Gues\x00" = .error (unknown "Gues\x00") :=
    hother _ (by intro r; cases r <;> decide)
  exact ⟨(hname _ _).mpr rfl, hother _ (by intro r; cases r <;> decide), hnull,
    hother _ (by intro r; cases r <;> decide), hshort,
    hother _ (by intro r; cases r <;> decide), (hquoted _ _ hnull).2.2,
    hdiffer _ _ _ _ hshort hshortNull (by decide)⟩

end Roster.Role
