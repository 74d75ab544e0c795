import Mathlib.Algebra.Group.Nat.Defs
import Mathlib.Data.Finset.Card
import Roster.Directory.Action

/-!
# The ids in use

A directory seen as the finite set of the ids it uses (`idSet`). Its size is the number of them
(`card_idSet`), so that sizes can be counted through what is found under each id.
-/

namespace Roster.Directory

def idSet (d : Directory) : Finset UInt64 := d.ids.toFinset

/-! ### The set and the view -/

theorem mem_ids {d : Directory} {id : UInt64} : id ∈ d.ids ↔ d.contains id = true := by
  rw [ids, Std.ExtTreeMap.mem_keys, contains, Std.ExtTreeMap.contains_iff_mem]

@[simp] theorem mem_idSet {d : Directory} {id : UInt64} :
    id ∈ d.idSet ↔ d.contains id = true := by
  rw [idSet, List.mem_toFinset, mem_ids]

/-- An id is in use exactly when it is found. -/
theorem mem_idSet_iff_isSome {d : Directory} {id : UInt64} :
    id ∈ d.idSet ↔ (d.find? id).isSome = true := by
  rw [mem_idSet, contains_eq_isSome_find?]

/-- **The size is the number of ids in use.** -/
theorem card_idSet (d : Directory) : d.idSet.card = d.size := by
  have hnodup : d.ids.Nodup := Std.ExtTreeMap.nodup_keys
  rw [idSet, List.toFinset_card_of_nodup hnodup]
  exact Std.ExtTreeMap.length_keys

/-- As long as the word holds it, the next id is the size plus one. -/
theorem toNat_nextId {d : Directory} (h : d.size + 1 < 2 ^ 64) : d.nextId.toNat = d.size + 1 := by
  have hsize : d.size % 2 ^ 64 = d.size := Nat.mod_eq_of_lt (by omega)
  rw [nextId, UInt64.toNat_add, UInt64.toNat_ofNat', hsize]
  exact Nat.mod_eq_of_lt h

end Roster.Directory
