import SectorVolume.Proofs.Allocation.Exact
import SectorVolume.Proofs.Allocation.Stock

/-!
# Taking sectors and giving them back

The allocator that works on a bitmap, told in terms of the stock of its storage. An allocation takes
the sectors that it returns or none; one that fails because the disk does may lose some.
-/

namespace SectorVolume

namespace FreeMap

open SectorVolume.Action Storage

variable {m : FreeMap} {w : Prop} {n : Nat} {st st' : Storage} {ids lost : List SectorId}

/-- The stock of a storage with a bitmap: a clear bit means that its sector is free. -/
def stock (m : FreeMap) (st : Storage) : Stock where
  content := st.logical
  free := fun id => id.toNat < m.sectors * 4096 ∧ m.bit st.logical id.toNat = false
  own := m.Holds
  bound := m.total
  failures := st.disk.failures

theorem free_stock {id : SectorId} : (m.stock st).free id ↔ id.toNat ∈ m.clear st.logical :=
  mem_clear.symm

/-! ## Allocations -/

theorem Handed.takes (h : m.Handed st.logical st'.logical ids)
    (failures : st'.disk.failures = st.disk.failures) :
    Stock.Takes ids (m.stock st) (m.stock st') := by
  refine ⟨⟨⟨rfl, rfl, Nat.le_of_eq failures.symm⟩, h.nodup, fun id hid => ?_, fun id free => ?_,
    fun _ id free notin => ?_, fun s _ own _ => h.others s own,
    fun s _ own _ => .inl (h.others s own)⟩, h.others⟩
  · exact free_stock.2 (h.mem_clear hid)
  · have clear := free_stock.1 free
    refine ⟨free_stock.2 ?_, fun hid => (h.marked hid).not_mem_clear clear⟩
    rw [h.first]
    exact List.mem_append_right _ clear
  · have clear := free_stock.1 free
    rw [h.first] at clear
    refine free_stock.2 ((List.mem_append.1 clear).resolve_left fun taken => notin ?_)
    obtain ⟨id', hid', e⟩ := List.mem_map.1 taken
    exact UInt32.toNat_inj.1 e ▸ hid'

namespace Denied

variable {count : Nat} {c : Fault}

theorem takes (h : m.Denied count st st' c lost) : Stock.Takes [] (m.stock st) (m.stock st') := by
  refine ⟨⟨⟨rfl, rfl, h.failures_le⟩, List.nodup_nil, nofun, fun id free => ?_,
    fun clean id free _ => ?_, fun s _ own _ => h.clears.others s own,
    fun s _ own _ => .inl (h.clears.others s own)⟩, h.clears.others⟩
  · exact ⟨free_stock.2 ((h.clears.clear _).1 (free_stock.1 free)).1, List.not_mem_nil⟩
  · obtain rfl := h.lost_eq_nil clean
    exact free_stock.2 ((h.mem_clear_iff _).2 (free_stock.1 free))

theorem denies (h : m.Denied count st st' c lost) :
    Stock.Denies count (m.stock st) (m.stock st') c := by
  rcases h.reason with ⟨rfl, short, -⟩ | ⟨device, less⟩
  · have listed : ∀ id, (m.stock st').free id → id ∈ (m.clear st.logical).map UInt32.ofNat :=
      fun id free =>
        List.mem_map.2 ⟨_, ((h.clears.clear _).1 (free_stock.1 free)).1, UInt32.ofNat_toNat⟩
    exact .inl ⟨rfl, .inl (Stock.short_of_subset listed (by rwa [List.length_map]))⟩
  · refine .inr ⟨⟨device, Nat.lt_of_le_of_lt (Nat.le_add_right _ _) less⟩, fun one id free => .inr ?_⟩
    have le : st'.disk.failures ≤ st.disk.failures + 1 := one
    obtain rfl : lost = [] := List.length_eq_zero_iff.1 (by omega)
    exact free_stock.2 ((h.mem_clear_iff _).2 (free_stock.1 free))

end Denied

theorem meets_allocate_stock (hp : m.Placed n) (h : st.Good w n []) {count : Nat}
    (listable : Listable count) :
    Meets (m.allocate count) st
      (fun ids st' => st'.Good w n [] ∧ ids.length = count ∧
        Stock.Takes ids (m.stock st) (m.stock st'))
      fun c st' => st'.Good w n [] ∧ Stock.Takes [] (m.stock st) (m.stock st') ∧
        Stock.Denies count (m.stock st) (m.stock st') c :=
  (meets_allocate hp.stands h hp.named listable).mono
    (fun _ _ h₁ => ⟨h₁.1, h₁.2.2.1, h₁.2.2.2.takes h₁.2.1⟩)
    fun _ _ ⟨good, _, denied⟩ => ⟨good, denied.takes, denied.denies⟩

/-! ## Giving back -/

theorem gave_of_same (h : Same w n [] st st') : Stock.Gave [] (m.stock st) (m.stock st') := by
  have free : (m.stock st').free = (m.stock st).free := by
    unfold stock
    rw [h.logical]
  refine ⟨⟨rfl, rfl, h.failures⟩, fun id hid => ?_, fun id hid => .inl ?_, fun _ => nofun,
    fun s _ => congrFun h.logical s⟩
  · rwa [free]
  · rwa [← free]

/-- The bit of a sector is cleared. -/
theorem gave_of_clears {id : SectorId} (failures : st.disk.failures ≤ st'.disk.failures)
    (h : m.Clears st.logical st'.logical fun k => k ∈ m.clear st.logical ∨ k = id.toNat) :
    Stock.Gave [id] (m.stock st) (m.stock st') := by
  refine ⟨⟨rfl, rfl, failures⟩, fun id' free => ?_, fun id' free => ?_, fun _ id' hid => ?_,
    h.others⟩
  · exact free_stock.2 ((h.clear _).2 (.inl (free_stock.1 free)))
  · refine ((h.clear _).1 (free_stock.1 free)).imp free_stock.2 fun e => ?_
    exact List.mem_singleton.2 (UInt32.toNat_inj.1 e)
  · rw [List.mem_singleton.1 hid]
    exact free_stock.2 ((h.clear _).2 (.inr rfl))

theorem meets_releaseOne (hp : m.Placed n) (h : st.Good w n []) {id : SectorId}
    (lt : id.toNat < m.sectors * 4096) (last : id.toNat + 1 < wordRange32)
    (taken : ¬ (m.stock st).free id) :
    Meets (m.release id 1) st
      (fun _ st' => st'.Good w n [] ∧ Stock.Gave [id] (m.stock st) (m.stock st') ∧
        (m.stock st').free id)
      (Breaks w n st) := by
  have e : 1 % wordRange32 = 1 := rfl
  have marked : m.Marked st.logical id.toNat :=
    marked_of_not_mem lt fun clear => taken (free_stock.2 clear)
  rw [release_eq, e, if_pos last]
  unfold Action.forEach Action.forEach
  rw [bind_pure_unit, UInt32.ofNat_toNat]
  refine (meets_giveBack hp.stands h marked).mono (fun _ st₁ h₁ => ?_) fun _ _ h => h
  obtain ⟨failures, good, clears⟩ := h₁
  exact ⟨good, gave_of_clears (Nat.le_of_eq failures.symm) clears,
    free_stock.2 ((clears.clear _).2 (.inr rfl))⟩

end FreeMap

end SectorVolume
