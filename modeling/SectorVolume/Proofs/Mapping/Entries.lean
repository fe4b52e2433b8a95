import Mathlib.Data.List.GetD
import Mathlib.Data.List.TakeWhile
import SectorVolume.Mapping.Growth

/-!
# Lists of entries

A row of entries without gaps is a list of sectors followed by zeros. Searching for its end, writing
behind its end and reading it back are operations on the list.
-/

namespace SectorVolume

/-- The row of `n` entries that begins with the given ones; the others are zero. -/
def listed (n : Nat) (ids : List SectorId) : Vector SectorId n := Vector.ofFn fun i => ids.getD i 0

variable {n : Nat} {ids new : List SectorId}

theorem getElem_listed (ids : List SectorId) {i : Nat} (hi : i < n) :
    (listed n ids)[i] = ids.getD i 0 := Vector.getElem_ofFn ..

theorem get_listed (ids : List SectorId) (i : Fin n) : (listed n ids).get i = ids.getD i 0 :=
  getElem_listed ids i.isLt

theorem ofList_eq (ids : List SectorId) : IndexBlock.ofList ids = listed 128 ids := by
  refine Vector.ext fun i hi => ?_
  simp [IndexBlock.ofList, listed, Array.getD_eq_getD_getElem?, List.getD_eq_getElem?_getD]

theorem listed_nil : listed n [] = Vector.replicate n 0 := by
  refine Vector.ext fun i hi => ?_
  simp [listed]

/-- An entry is missing exactly behind the end. -/
theorem getD_ne_zero_iff (h : ∀ id ∈ ids, id ≠ 0) {i : Nat} :
    ids.getD i 0 ≠ 0 ↔ i < ids.length := by
  by_cases hi : i < ids.length
  · rw [List.getD_eq_getElem _ _ hi]
    exact iff_of_true (h _ (List.getElem_mem hi)) hi
  · rw [List.getD_eq_default _ _ (by omega)]
    exact iff_of_false (fun h => h rfl) hi

theorem firstMissing_listed (h : ∀ id ∈ ids, id ≠ 0) {i : Nat} (hi : ids.length ≤ i)
    (hn : i ≤ n) : Growth.firstMissing (listed n ids) i = ids.length := by
  induction i with
  | zero => exact (Nat.le_zero.1 hi).symm
  | succ i ih =>
    have entry : (listed n ids)[i]?.getD 0 = ids.getD i 0 := by
      rw [Vector.getElem?_eq_getElem (by omega), getElem_listed]
      rfl
    unfold Growth.firstMissing
    rw [entry]
    by_cases e : i < ids.length
    · rw [if_neg ((getD_ne_zero_iff h).2 e)]
      omega
    · have zero : ids.getD i 0 = 0 := List.getD_eq_default _ _ (by omega)
      rw [if_pos zero]
      exact ih (by omega) (by omega)

theorem setFrom_listed (ids new : List SectorId) :
    Growth.setFrom (listed n ids) ids.length new = listed n (ids ++ new) := by
  refine Vector.ext fun i hi => ?_
  simp only [Growth.setFrom, listed, Vector.getElem_ofFn]
  by_cases e : ids.length ≤ i
  · rw [if_pos e, List.getD_append_right _ _ _ _ e]
    simp [Array.getD_eq_getD_getElem?, List.getD_eq_getElem?_getD, List.getElem?_eq_none e]
  · rw [if_neg e, List.getD_append _ _ _ _ (by omega)]
    exact getElem_listed ids hi

theorem allocated_listed (h : ∀ id ∈ ids, id ≠ 0) (hn : ids.length ≤ n) :
    allocated (listed n ids) = ids := by
  have list : (listed n ids).toList = ids ++ List.replicate (n - ids.length) 0 := by
    refine List.ext_getElem (by simp; omega) fun i hi _ => ?_
    have hi : i < n := by simpa using hi
    rw [Vector.getElem_toList, getElem_listed]
    by_cases e : i < ids.length
    · rw [List.getD_eq_getElem _ _ e, List.getElem_append_left e]
    · rw [List.getD_eq_default _ _ (by omega), List.getElem_append_right (by omega)]
      simp
  unfold allocated
  rw [list, List.takeWhile_append_of_pos fun id hid => by simpa using h id hid]
  cases n - ids.length <;> simp

theorem listed_injective {ids' : List SectorId} (h : ∀ id ∈ ids, id ≠ 0) (h' : ∀ id ∈ ids', id ≠ 0)
    (hn : ids.length ≤ n) (hn' : ids'.length ≤ n) (e : listed n ids = listed n ids') :
    ids = ids' := by
  rw [← allocated_listed h hn, e, allocated_listed h' hn']

theorem setIfInBounds_listed (ids : List SectorId) (id : SectorId) :
    (listed n ids).setIfInBounds ids.length id = listed n (ids ++ [id]) := by
  refine Vector.ext fun i hi => ?_
  rw [Vector.getElem_setIfInBounds, getElem_listed, getElem_listed]
  by_cases e : ids.length = i
  · subst e
    rw [if_pos rfl, List.getD_append_right _ _ _ _ (Nat.le_refl _)]
    simp
  · rw [if_neg e]
    by_cases e' : i < ids.length
    · rw [List.getD_append _ _ _ _ e']
    · rw [List.getD_eq_default _ _ (by omega), List.getD_eq_default]
      rw [List.length_append, List.length_singleton]
      omega

/-! ## Index blocks -/

namespace IndexBlock

theorem ofSector_toSector (b : IndexBlock) : ofSector b.toSector = b := Sector.words32_ofWords32 b

/-- The sector of the index block with the given entries. -/
def sectorOf (ids : List SectorId) : Sector := toSector (listed 128 ids)

theorem ofSector_sectorOf (ids : List SectorId) : ofSector (sectorOf ids) = listed 128 ids :=
  ofSector_toSector _

/-- The allocated entries of an index block are words of its sector, and none of them is zero. -/
theorem mem_allocated_ofSector {s : Sector} {id : SectorId} (h : id ∈ allocated (ofSector s)) :
    id ≠ 0 ∧ ∃ i, s.word32 i = id := by
  have present := List.mem_takeWhile_imp h
  have listed := (List.takeWhile_prefix _).subset h
  exact ⟨by simpa using present, Vector.mem_ofFn.1 (Vector.mem_toList_iff.1 listed)⟩

theorem word32_sectorOf (ids : List SectorId) (i : Fin 128) :
    (sectorOf ids).word32 i = ids.getD i 0 := by
  unfold sectorOf toSector
  rw [Sector.word32_ofWords32]
  exact getElem_listed ids i.isLt

theorem word32_zero (i : Fin 128) : Sector.zero.word32 i = 0 := by
  simp [Sector.word32, Sector.zero, Word.of32]

/-- A sector of zeros is an index block without entries. -/
theorem sectorOf_nil : sectorOf [] = Sector.zero := by
  have words : listed 128 [] = Sector.zero.words32 := by
    refine Vector.ext fun i hi => ?_
    rw [Sector.getElem_words32, word32_zero, getElem_listed]
    rfl
  generalize Sector.zero = zeros at words ⊢
  exact (congrArg Sector.ofWords32 words).trans (Sector.ofWords32_words32 zeros)

end IndexBlock

end SectorVolume
