import Roster.Proofs.Lookup.Settlement
import Roster.Role

/-!
# Failures that travel as records

A failure goes out with whatever number it has, but a number that belongs to no kind does not come
back: it is read as that of `Kind.unknown`.

* Reading a record and sending it on settles its number (`toRecord_ofRecord`): the records that this
  leaves alone are those with the number of a kind (`toRecord_ofRecord_eq_iff`), and one pass leads
  there (`code_ofRecord_mem`).
* A failure comes back the same exactly if its number is that of a kind
  (`ofRecord_toRecord_eq_iff`). All that the program makes itself are such: bare failures, those of
  lookups that were cancelled and those of texts that name no role.
-/

namespace Roster

namespace Failure

/-! ## The numbers of kinds -/

def knownCodes : List Int32 := [0, 1, 6, 9, 10, 128]

theorem mem_knownCodes {c : Int32} : c ∈ knownCodes ↔ ∃ kind : Kind, kind.code = c := by
  have hcodes : knownCodes = Kind.all.map Kind.code := rfl
  rw [hcodes, List.mem_map]
  constructor
  · rintro ⟨kind, _, h⟩
    exact ⟨kind, h⟩
  · rintro ⟨kind, h⟩
    exact ⟨kind, Kind.mem_all kind, h⟩

theorem code_mem_knownCodes (kind : Kind) : kind.code ∈ knownCodes :=
  mem_knownCodes.mpr ⟨kind, rfl⟩

/-- The names that numbers are printed with are those of the kinds. -/
theorem name?_eq (f : Failure) : f.name? = (Kind.ofCode? f.code).map Kind.name := by
  cases hkind : Kind.ofCode? f.code with
  | some kind =>
    have hcode : f.code = kind.code := (Kind.ofCode?_eq_some_iff.mp hkind).symm
    rw [name?, hcode]
    cases kind <;> rfl
  | none =>
    have hunknown : f.code ∉ knownCodes := by
      intro hmem
      obtain ⟨kind, hcode⟩ := mem_knownCodes.mp hmem
      rw [Kind.ofCode?_eq_some_iff.mpr hcode] at hkind
      cases hkind
    simp only [knownCodes, List.mem_cons, List.not_mem_nil, or_false, not_or] at hunknown
    simp [name?, hunknown]

/-! ## Reading a record -/

/-- **A number is kept if a kind has it, and is that of `Kind.unknown` otherwise.** -/
theorem code_ofRecord (r : Record) :
    (ofRecord r).code = if r.code ∈ knownCodes then r.code else Kind.unknown.code := by
  simp [ofRecord, knownCodes]

theorem code_ofRecord_mem (r : Record) : (ofRecord r).code ∈ knownCodes := by
  rw [code_ofRecord]
  split
  · next hmem => exact hmem
  · exact code_mem_knownCodes .unknown

theorem isSome_name?_ofRecord (r : Record) : (ofRecord r).name?.isSome = true := by
  obtain ⟨kind, hcode⟩ := mem_knownCodes.mp (code_ofRecord_mem r)
  rw [name?_eq, Kind.ofCode?_eq_some_iff.mpr hcode]
  rfl

theorem toRecord_inj {f g : Failure} : f.toRecord = g.toRecord ↔ f = g := by
  constructor
  · intro h
    injection h with hcode hwhat hid
    cases f
    cases g
    congr
  · rintro rfl
    rfl

/-- Sending on what was read changes a record in its number only. -/
theorem toRecord_ofRecord (r : Record) :
    (ofRecord r).toRecord =
      { r with code := if r.code ∈ knownCodes then r.code else Kind.unknown.code } := by
  rw [← code_ofRecord]
  rfl

theorem toRecord_ofRecord_eq_iff (r : Record) :
    (ofRecord r).toRecord = r ↔ r.code ∈ knownCodes := by
  constructor
  · intro h
    rw [← h]
    exact code_ofRecord_mem r
  · intro h
    rw [toRecord_ofRecord, if_pos h]

/-- **A failure comes back the same exactly if its number is that of a kind.** -/
theorem ofRecord_toRecord_eq_iff (f : Failure) :
    ofRecord f.toRecord = f ↔ f.code ∈ knownCodes := by
  rw [← toRecord_inj, toRecord_ofRecord_eq_iff]
  rfl

theorem ofRecord_toRecord_ofKind (kind : Kind) (what : String) (id : UInt64) :
    ofRecord (ofKind kind what id).toRecord = ofKind kind what id :=
  (ofRecord_toRecord_eq_iff _).mpr (code_mem_knownCodes kind)

/-! ## Failures of the program's own -/

/-- A failure without a text is a bare one. -/
theorem eq_bare_of_ofFields? {code : Int32} {id : Option UInt64} {f : Failure}
    (h : ofFields? code none id = some f) : ∃ kind, f = bare kind := by
  obtain ⟨kind, _, hkind⟩ := Option.map_eq_some_iff.mp h
  exact ⟨kind, hkind.symm⟩

end Failure

/-- A text that names no role fails with its own failure. -/
theorem Role.eq_unknown_of_parse {text : String} {f : Failure} (h : parse text = .error f) :
    f = unknown text := by
  unfold parse at h
  split at h
  · cases h
  · split at h
    · cases h
    · split at h
      · cases h
      · cases h
        rfl

/-- **A lookup fails in one way only**: it was cancelled. -/
theorem Registry.eq_cancelled_of_outcome {moves : List Move} {handle : Nat} {l : Lookup}
    {f : Failure} (hl : (empty.afterAll moves).lookups[handle]? = some l)
    (hf : l.outcome? = some (.failed f)) : f = Lookup.cancelled l.id := by
  rcases returns_of_outcome_afterAll hl hf with ⟨_, hnone, _⟩ | ⟨before, m, after, v, rfl, hv⟩
  · cases hnone
  · rw [hv.outcome_afterAll hl] at hf
    cases v with
    | completed => cases hf
    | interrupted =>
      cases hf
      rfl
    | broken _ => cases hf

namespace Failure

/-- **Which failures come back the same.**

* A record with any number, text and id is read as a failure with that text and id, which has a
  name. Its number is kept if it is 0, 1, 6, 9, 10 or 128, and is 128 otherwise.
* Reading and sending on twice is the same as once, and what it leaves alone are the records with
  one of those numbers.
* A failure that is sent and read comes back the same exactly if it has one of those numbers. Every
  failure made of a kind alone does, and so does every failure that a lookup ends with, in any run,
  and every failure of a text that names no role.
* Different failures have different records, whatever their numbers. -/
theorem known_failures_come_back :
    (∀ code what id,
      (ofRecord ⟨code, what, id⟩).what = what ∧ (ofRecord ⟨code, what, id⟩).id = id ∧
      (ofRecord ⟨code, what, id⟩).name?.isSome = true ∧
      (ofRecord ⟨code, what, id⟩).code =
        if code ∈ ([0, 1, 6, 9, 10, 128] : List Int32) then code else 128) ∧
    (∀ r, (ofRecord (ofRecord r).toRecord).toRecord = (ofRecord r).toRecord) ∧
    (∀ r, (ofRecord r).toRecord = r ↔ r.code ∈ ([0, 1, 6, 9, 10, 128] : List Int32)) ∧
    (∀ f, ofRecord f.toRecord = f ↔ f.code ∈ ([0, 1, 6, 9, 10, 128] : List Int32)) ∧
    (∀ code id f, ofFields? code none id = some f → ofRecord f.toRecord = f) ∧
    (∀ (moves : List Registry.Move) (handle : Nat) (l : Lookup) (f : Failure),
      (Registry.empty.afterAll moves).lookups[handle]? = some l → l.outcome? = some (.failed f) →
        f.code = Kind.cancelled.code ∧ ofRecord f.toRecord = f) ∧
    (∀ text f, Role.parse text = .error f → ofRecord f.toRecord = f) ∧
    (∀ f g : Failure, f.toRecord = g.toRecord ↔ f = g) := by
  refine ⟨?_, ?_, toRecord_ofRecord_eq_iff, ofRecord_toRecord_eq_iff, ?_, ?_, ?_, ?_⟩
  · intro code what id
    exact ⟨rfl, rfl, isSome_name?_ofRecord _, code_ofRecord ⟨code, what, id⟩⟩
  · intro r
    rw [toRecord_ofRecord_eq_iff]
    exact code_ofRecord_mem r
  · intro code id f hf
    obtain ⟨kind, rfl⟩ := eq_bare_of_ofFields? hf
    exact ofRecord_toRecord_ofKind kind _ _
  · intro moves handle l f hl hf
    rw [Registry.eq_cancelled_of_outcome hl hf]
    exact ⟨rfl, ofRecord_toRecord_ofKind .cancelled _ _⟩
  · intro text f hf
    rw [Role.eq_unknown_of_parse hf]
    exact ofRecord_toRecord_ofKind .invalidArgument _ _
  · intro f g
    exact toRecord_inj

/-- A lookup that is cancelled when it starts, since a stop has been requested before. -/
def stoppedRun : List Registry.Move :=
  [ .command (.openStore none .timed),
    .command (.lookup 0 5 .stopped) ]

/-- A failure of each origin, and one with a number of its own that comes back as another. -/
theorem known_failures_come_back_each :
    ofFields? 9 none none = some (bare .internal) ∧
    ofRecord (bare .internal).toRecord = bare .internal ∧
    ((Registry.empty.afterAll stoppedRun).lookups[0]?).bind Lookup.outcome? =
      some (.failed (Lookup.cancelled 5)) ∧
    ofRecord (Lookup.cancelled 5).toRecord = Lookup.cancelled 5 ∧
    Role.parse "admin" = .error (Role.unknown "admin") ∧
    ofRecord (Role.unknown "admin").toRecord = Role.unknown "admin" ∧
    ofRecord (⟨-3, "odd", 1⟩ : Failure).toRecord ≠ ⟨-3, "odd", 1⟩ := by
  obtain ⟨_, _, _, hback, hbare, hlookup, hrole, _⟩ := known_failures_come_back
  have hfields : ofFields? 9 none none = some (bare .internal) := by decide
  have hparse : Role.parse "admin" = .error (Role.unknown "admin") := rfl
  have hcancelled := hlookup stoppedRun 0 _ (Lookup.cancelled 5) rfl rfl
  exact ⟨hfields, hbare 9 none _ hfields, rfl, hcancelled.2, hparse, hrole _ _ hparse,
    fun h => absurd ((hback _).mp h) (by decide)⟩

end Failure

end Roster
