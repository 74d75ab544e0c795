import Mathlib.Order.Interval.Finset.Nat
import Roster.Proofs.Directory.Ids

/-!
# Dense directories

The id of the next newcomer goes by the number of users and not by the ids in use. It can only be
taken if the ids have a gap below it: there are not enough users to fill the gap and to stand above
it as well (`exists_free_of_taken`).

A directory without such a gap is *dense*: the ids in use are those from one up to the size. It
stays dense when a user is stored no higher than right above the last id (`IsDense.insert`) and when
the last id is removed (`IsDense.erase`).
-/

namespace Roster.Directory

variable {d : Directory}

theorem contains_insert (d : Directory) (u : User) (id : UInt64) :
    (d.insert u).contains id = true ↔ id = u.id ∨ d.contains id = true := by
  rw [contains_eq_isSome_find?, contains_eq_isSome_find?, find?_insert]
  by_cases h : id = u.id <;> simp [h]

theorem contains_erase (d : Directory) (id₀ id : UInt64) :
    (d.erase id₀).contains id = true ↔ id ≠ id₀ ∧ d.contains id = true := by
  rw [contains_eq_isSome_find?, contains_eq_isSome_find?, find?_erase]
  by_cases h : id = id₀ <;> simp [h]

theorem contains_eq_false_iff {id : UInt64} : d.contains id = false ↔ d.find? id = none := by
  rw [contains_eq_isSome_find?, Option.isSome_eq_false_iff, Option.isNone_iff_eq_none]

/-- **A taken id leaves another one free.** If the next newcomer meets an id in use, some id from
one up to the size is not in use. -/
theorem exists_free_of_taken (hfit : d.size + 1 < 2 ^ 64) (htaken : d.contains d.nextId = true) :
    ∃ id : UInt64, 1 ≤ id.toNat ∧ id.toNat ≤ d.size ∧ d.contains id = false := by
  by_contra hnone
  -- Otherwise all numbers up to the size plus one are ids in use, which is one too many.
  have hused : Finset.Icc 1 (d.size + 1) ⊆ d.idSet.image UInt64.toNat := by
    intro k hk
    obtain ⟨hlow, hhigh⟩ := Finset.mem_Icc.mp hk
    have hk64 : (UInt64.ofNat k).toNat = k :=
      UInt64.toNat_ofNat_of_lt' (Nat.lt_of_le_of_lt hhigh hfit)
    refine Finset.mem_image.mpr ⟨UInt64.ofNat k, mem_idSet.mpr ?_, hk64⟩
    by_cases hlast : k = d.size + 1
    · have hnext : UInt64.ofNat k = d.nextId := by
        apply UInt64.toNat_inj.mp
        rw [hk64, toNat_nextId hfit, hlast]
      rw [hnext]
      exact htaken
    · by_contra hfree
      exact hnone ⟨UInt64.ofNat k, by omega, by omega, Bool.eq_false_iff.mpr hfree⟩
  have hcard : d.size + 1 ≤ d.size := calc
    d.size + 1 = (Finset.Icc 1 (d.size + 1)).card := by rw [Nat.card_Icc, Nat.add_sub_cancel]
    _ ≤ (d.idSet.image UInt64.toNat).card := Finset.card_le_card hused
    _ ≤ d.idSet.card := Finset.card_image_le
    _ = d.size := card_idSet d
  exact Nat.not_succ_le_self _ hcard

/-- With nobody but a user under id 2, the next newcomer meets that id while id 1 is free. -/
example :
    let d := empty.insert ⟨2, "Bob", "bob@x.com"⟩
    d.contains d.nextId = true ∧ d.contains 1 = false := by decide

/-! ## Dense directories -/

/-- The ids in use are exactly those from one up to the size. -/
def IsDense (d : Directory) : Prop :=
  ∀ id : UInt64, d.contains id = true ↔ 1 ≤ id.toNat ∧ id.toNat ≤ d.size

theorem isDense_empty : empty.IsDense := by
  intro id
  rw [contains_eq_isSome_find?, find?_empty, size_empty]
  constructor
  · intro h
    cases h
  · rintro ⟨hlow, hhigh⟩
    omega

namespace IsDense

/-- In a dense directory the next newcomer gets an id that is free. -/
theorem not_contains_nextId (h : d.IsDense) (hfit : d.size + 1 < 2 ^ 64) :
    d.contains d.nextId = false := by
  rw [Bool.eq_false_iff, ne_eq, h, toNat_nextId hfit]
  omega

/-- Storing under an id in use changes nothing about the ids, and storing right above them makes
them one more. -/
theorem insert (h : d.IsDense) {u : User} (hlow : 1 ≤ u.id.toNat)
    (hhigh : u.id.toNat ≤ d.size + 1) : (d.insert u).IsDense := by
  intro id
  rw [contains_insert, size_insert, h]
  by_cases hin : u.id.toNat ≤ d.size
  · rw [if_pos ((h u.id).mpr ⟨hlow, hin⟩)]
    constructor
    · rintro (rfl | hid)
      · exact ⟨hlow, hin⟩
      · exact hid
    · exact .inr
  · have hfree : ¬ d.contains u.id = true := fun hc => hin ((h u.id).mp hc).2
    have hlast : id = u.id ↔ id.toNat = d.size + 1 := by
      rw [← UInt64.toNat_inj]
      omega
    rw [if_neg hfree, hlast]
    omega

/-- Removing the greatest id makes the ids one less. -/
theorem erase (h : d.IsDense) (hfit : d.size < 2 ^ 64) {id₀ : UInt64}
    (hin : d.contains id₀ = true) (hgreatest : ∀ id, d.contains id = true → id ≤ id₀) :
    (d.erase id₀).IsDense := by
  obtain ⟨hlow, hhigh⟩ := (h id₀).mp hin
  -- The greatest id is the size.
  have hsize : (UInt64.ofNat d.size).toNat = d.size := UInt64.toNat_ofNat_of_lt' hfit
  have hlast : d.contains (UInt64.ofNat d.size) = true := (h _).mpr (by omega)
  have hle := UInt64.le_iff_toNat_le.mp (hgreatest _ hlast)
  intro id
  rw [contains_erase, size_erase, if_pos hin, h, ne_eq, ← UInt64.toNat_inj]
  omega

end IsDense

end Roster.Directory
