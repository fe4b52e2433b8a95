import SectorVolume.Sector.Basic
import SectorVolume.Queue

/-!
# Allocators from outside

A volume may be given an allocator that has nothing to do with the storage. Of such an allocator
only the contract is known: it hands out free sectors, all that are asked for or none, and takes
back what it handed out.
-/

namespace SectorVolume

/-- An allocator as its users know it: what it does, and what it owes to them. What it remembers is
a sequence of words, and only the allocator knows what they mean. -/
structure Supplier where
  /-- The free sectors, for what the allocator remembers. -/
  free : Queue SectorId → List SectorId
  /-- Takes as many free sectors, if there are so many. -/
  take? : Queue SectorId → Nat → Option (List SectorId × Queue SectorId)
  /-- Takes sectors back. -/
  give : Queue SectorId → List SectorId → Queue SectorId
  /-- The number of free sectors. -/
  count : Queue SectorId → Nat
  /-- Nothing is handed out only if there is too little. -/
  refused : ∀ memory n, take? memory n = none → (free memory).length < n
  /-- As many as were asked for are handed out, and they are not free any more. -/
  taken : ∀ memory n ids memory', take? memory n = some (ids, memory') →
    ids.length = n ∧ (free memory).Perm (ids ++ free memory')
  /-- What was not free becomes free. -/
  given : ∀ memory ids, (ids ++ free memory).Nodup →
    (free (give memory ids)).Perm (ids ++ free memory)
  /-- The free sectors are counted. -/
  counted : ∀ memory, count memory = (free memory).length

/-- A queue of free sectors. They are handed out from its front and come back to its end. -/
def Supplier.queue : Supplier where
  free := Queue.toList
  take? := Queue.take?
  give := Queue.pushAll
  count := Queue.size
  refused _ _ h := Queue.take?_eq_none_iff.1 h
  taken _ _ _ _ h := by
    obtain ⟨length, sequence⟩ := Queue.append_of_take?_eq_some h
    exact ⟨length, .of_eq sequence⟩
  given memory ids _ := by
    rw [Queue.toList_pushAll]
    exact List.perm_append_comm
  counted := Queue.size_eq

end SectorVolume
