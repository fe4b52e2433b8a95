import SectorVolume.Mapping.Populate
import SectorVolume.Proofs.Mapping.Reading

/-!
# What allocators and maps hide

The bitmap, the allocator and the maps of files only use storage through its operations. So they
cannot tell apart what these cannot tell apart: whether the entries of a map lead anywhere, whether
the ids that are given back were taken, and however an operation ends.
-/

namespace SectorVolume

open SectorVolume.Action

variable {α : Type} {c : Comparison Storage} {same : α → α → Prop}

/-! ## The bitmap -/

namespace FreeMap

variable (m : FreeMap)

theorem blind_format (h : c.Hidden) (reserved : Nat) : Blind c (m.format reserved) :=
  (blind_forEach (fun i => (m.blind_sectorAt i).bind fun _ => h.modifySector _ _) _ _).bind fun _ =>
    h.blind_note _

theorem blind_takeFrom (h : c.Hidden) (i count : Nat) : Blind c (m.takeFrom i count) := by
  induction count generalizing i with
  | zero => exact blind_pure _
  | succ count ih =>
    unfold takeFrom
    refine (m.blind_sectorAt i).bind fun sector => (h.readSector sector).bind fun s => ?_
    split
    · exact (h.modifySector _ _).bind fun _ => blind_pure _
    · exact ih _

theorem blind_giveBack (h : c.Hidden) (id : SectorId) : Blind c (m.giveBack id) := by
  unfold giveBack
  refine blind_when (blind_violate _) ((m.blind_sectorAt _).bind fun sector => ?_)
  exact h.modifySector _ _

theorem blind_rollBack (h : c.Hidden) (ids : List SectorId) : Blind c (m.rollBack ids) := by
  induction ids with
  | nil => exact blind_pure _
  | cons id rest ih =>
    unfold rollBack
    refine (m.blind_giveBack h id).attempt.bind fun given => ?_
    split
    · exact ih
    · exact Blind.bind (h.blind_note _) fun _ => ih

theorem blind_takeMore (h : c.Hidden) (requested : Nat) (taken : List SectorId) (missing : Nat) :
    Blind c (m.takeMore requested taken missing) := by
  induction missing generalizing taken with
  | zero => exact blind_pure _
  | succ missing ih =>
    unfold takeMore
    refine (m.blind_takeFrom h 0 m.sectors).attempt.bind fun found => ?_
    split
    · exact ih _
    · exact (m.blind_rollBack h _).bind fun _ => blind_fail _
    · exact (m.blind_rollBack h _).bind fun _ => blind_fail _

theorem blind_allocate (h : c.Hidden) (count : Nat) : Blind c (m.allocate count) := by
  unfold allocate
  exact blind_when (blind_violate _) (m.blind_takeMore h count [] count)

theorem blind_release (h : c.Hidden) (first : SectorId) (count : Nat) :
    Blind c (m.release first count) := by
  unfold release
  exact blind_when (blind_violate _) (blind_forEach (fun _ => m.blind_giveBack h _) _ _)

end FreeMap

/-! ## The allocator -/

namespace Space

theorem blind_setAllocator (allocator : Allocator) :
    Blind c.space (modify fun sp => { sp with allocator } : Action Space PUnit) :=
  blind_modify (fun _ fit => fit) (fun _ _ alike => ⟨alike.1, rfl⟩) fun _ => rfl

theorem blind_allocate (h : c.Hidden) (count : Nat) : Blind c.space (allocate count) := by
  unfold allocate
  refine blind_get_bind (fun _ _ _ => rfl) fun sp => ?_
  split
  · next map _ => exact blind_onStorage (map.blind_allocate h count)
  · split
    · exact Blind.bind (blind_setAllocator _) fun _ => blind_pure _
    · exact blind_fail _

theorem blind_release (h : c.Hidden) (first : SectorId) (count : Nat) :
    Blind c.space (release first count) := by
  unfold release
  refine blind_get_bind (fun _ _ _ => rfl) fun sp => ?_
  split
  · next map _ => exact blind_onStorage (map.blind_release h first count)
  · refine Blind.bind (blind_setAllocator _) fun _ => ?_
    exact blind_ite (blind_violate _) (blind_pure _)

theorem blind_releaseAll (h : c.Hidden) (ids : List SectorId) : Blind c.space (releaseAll ids) := by
  induction ids with
  | nil => exact blind_pure _
  | cons id rest ih => exact (blind_release h id 1).bind fun _ => ih

end Space

/-! ## The maps of files -/

/-- Compares maps with equal records by their storage. -/
def Comparison.mapping (c : Comparison Storage) : Comparison Mapping :=
  c.space.onPart Mapping.space Mapping.record

theorem Comparison.lens_mapping : Lens c.space c.mapping Mapping.space fun sp m => ⟨sp, m.record⟩ :=
  lens_onPart (fun _ _ => rfl) fun _ _ => rfl

open Space (blind_onStorage blind_allocate blind_releaseAll)

theorem IndexBlock.blind_save (h : c.Hidden) (sector : SectorId) (block : IndexBlock) :
    Blind c (save sector block) := h.replaceSector sector _

open IndexBlock (blind_save)

namespace Mapping

theorem onSpace_eq_within (x : Action Space α) :
    onSpace x = within Mapping.space (fun sp m => ⟨sp, m.record⟩) x := by
  funext ⟨space, record⟩
  unfold onSpace within
  simp only
  cases x space <;> rfl

theorem blind_onSpace {x : Action Space α} (h : Blind c.space x) : Blind c.mapping (onSpace x) := by
  rw [onSpace_eq_within]
  exact Comparison.lens_mapping.couples h

theorem blind_onStorage {x : Action Storage α} (h : Blind c x) : Blind c.mapping (onStorage x) :=
  blind_onSpace (Space.blind_onStorage h)

theorem blind_modifyRecord (f : Record → Record) : Blind c.mapping (modifyRecord f) :=
  blind_modify (fun _ fit => fit) (fun _ _ alike => ⟨alike.1, congrArg f alike.2⟩) fun _ => rfl

theorem blind_get_bind {k : Mapping → Action Mapping α}
    (e : ∀ sp sp' r, k ⟨sp, r⟩ = k ⟨sp', r⟩) (h : ∀ m, Blind c.mapping (k m)) :
    Blind c.mapping (get >>= k) := by
  refine SectorVolume.blind_get_bind ?_ h
  rintro ⟨sp, r⟩ ⟨sp', _⟩ ⟨-, rfl⟩
  exact e sp sp' r

end Mapping

open Mapping (blind_onSpace blind_modifyRecord)

namespace Growth

theorem blind_zeroAll (h : c.Hidden) (ids : List SectorId) : Blind c.space (zeroAll ids) := by
  induction ids with
  | nil => exact blind_pure _
  | cons id rest ih => exact (blind_onStorage (h.writeZeros id)).bind fun _ => ih

theorem blind_allocateZeroed (h : c.Hidden) (count : Nat) :
    Blind c.space (allocateZeroed count) := by
  unfold allocateZeroed
  refine (blind_allocate h count).bind fun ids => (blind_zeroAll h ids).attempt.bind fun filled => ?_
  split
  · exact blind_pure _
  · exact (blind_releaseAll h ids).bind fun _ => blind_fail _

theorem blind_allocateOne (h : c.Hidden) : Blind c.space allocateOne :=
  (blind_allocateZeroed h 1).bind fun _ => blind_pure _

theorem blind_backfill (h : c.Hidden) {n : Nat} (entries : Vector SectorId n) (i : Fin n) :
    Blind c.space (backfill entries i) := by
  unfold backfill
  exact blind_ite (blind_pure _) ((blind_allocateZeroed h _).bind fun _ => blind_pure _)

theorem blind_ensureEntry (h : c.Hidden) (block : SectorId) (i : Fin 128) :
    Blind c.space (ensureEntry block i) := by
  unfold ensureEntry
  refine (blind_onStorage (h.load block)).bind fun entries => ?_
  refine blind_ite (blind_pure _) ((blind_backfill h entries i).bind fun grown => ?_)
  exact (blind_onStorage (blind_save h block grown)).bind fun _ => blind_pure _

theorem blind_growChildren (h : c.Hidden) (top : IndexBlock) (cursor count : Nat) :
    Blind c.space (growChildren top cursor count) := by
  induction count generalizing top cursor with
  | zero => exact blind_pure _
  | succ count ih =>
    unfold growChildren
    refine (blind_allocateOne h).attempt.bind fun one => ?_
    split
    · exact blind_pure _
    · refine blind_ite (blind_pure _) ?_
      refine (blind_ensureEntry h _ _).attempt.bind fun full => ?_
      split
      · exact blind_pure _
      · exact ih _ _

theorem blind_growTop (h : c.Hidden) (top : IndexBlock) (first outer : Nat) :
    Blind c.space (growTop top first outer) := by
  unfold growTop
  extract_lets rest
  have onward : ∀ before, Blind c.space (rest before) := by
    intro before
    unfold rest
    split
    · exact blind_pure _
    · exact blind_growChildren h _ _ _
  refine blind_ite ((blind_pure _).bind onward) ?_
  exact (blind_ensureEntry h _ _).attempt.bind onward

theorem blind_ensureDirect (h : c.Hidden) (i : Fin 12) : Blind c.mapping (ensureDirect i) := by
  unfold ensureDirect
  refine Mapping.blind_get_bind (fun _ _ _ => rfl) fun m => ?_
  refine (blind_onSpace (blind_backfill h _ i)).bind fun direct => ?_
  exact (blind_modifyRecord _).bind fun _ => blind_pure _

theorem blind_ensureIndirect (h : c.Hidden) (i : Fin 128) : Blind c.mapping (ensureIndirect i) := by
  have entry : Blind c.mapping
      (do ensureEntry (← get).record.indirect i : Action Mapping SectorId) :=
    Mapping.blind_get_bind (fun _ _ _ => rfl) fun m => blind_onSpace (blind_ensureEntry h _ i)
  unfold ensureIndirect
  refine Mapping.blind_get_bind (fun _ _ _ => rfl) fun m => blind_ite ?_ entry
  refine (blind_ensureDirect h _).bind fun _ => (blind_onSpace (blind_allocateOne h)).bind fun sector => ?_
  refine (blind_modifyRecord _).bind fun _ => Blind.bind ?_ fun _ => entry
  exact blind_onSpace (blind_onStorage (h.blind_note _))

theorem blind_ensureDouble (h : c.Hidden) (outer inner : Fin 128) :
    Blind c.mapping (ensureDouble outer inner) := by
  unfold ensureDouble
  refine Mapping.blind_get_bind (fun _ _ _ => rfl) fun m => ?_
  extract_lets rest
  have below : Blind c.mapping (rest ⟨⟩) := by
    refine Mapping.blind_get_bind (fun _ _ _ => rfl) fun m => ?_
    refine (blind_onSpace (blind_onStorage (h.load _))).bind fun top => ?_
    refine blind_ite (blind_onSpace (blind_ensureEntry h _ _)) ?_
    refine (blind_onSpace (blind_growTop h _ _ _)).bind fun grown => ?_
    refine (blind_onSpace (blind_onStorage (blind_save h _ _))).bind fun _ => ?_
    exact (blind_resume _).bind fun _ => blind_onSpace (blind_ensureEntry h _ _)
  refine blind_ite ?_ below
  refine (blind_ensureIndirect h _).bind fun _ => ?_
  refine (blind_onSpace (blind_allocateOne h)).bind fun sector => ?_
  refine (blind_modifyRecord _).bind fun _ => Blind.bind ?_ fun _ => below
  exact blind_onSpace (blind_onStorage (h.blind_note _))

theorem blind_ensure (h : c.Hidden) (offset : Nat) : Blind c.mapping (ensure offset) := by
  unfold ensure
  split
  · exact blind_pure _
  · exact (blind_ensureDirect h _).bind fun _ => blind_pure _
  · exact (blind_ensureIndirect h _).bind fun _ => blind_pure _
  · exact (blind_ensureDouble h _ _).bind fun _ => blind_pure _

end Growth

namespace Mapping

theorem blind_supply {σ : Type} {c : Comparison σ} (count : Nat) (ids : List SectorId) :
    Blind c (supply count ids) := by
  unfold supply
  exact blind_when (blind_violate _) (blind_pure _)

theorem blind_fillBlocks (h : c.Hidden) (remaining count : Nat) (ids : List SectorId) :
    Blind c (fillBlocks remaining count ids) := by
  induction count generalizing remaining ids with
  | zero => exact blind_pure _
  | succ count ih =>
    cases ids with
    | nil => exact blind_violate _
    | cons block ids =>
      unfold fillBlocks
      refine (blind_supply _ _).bind fun _ => (blind_save h _ _).bind fun _ => ?_
      exact (ih _ _).bind fun _ => blind_pure _

theorem blind_fill (h : c.Hidden) (data : Nat) (ids : List SectorId) :
    Blind c.mapping (fill data ids) := by
  have zeros := fun ids => blind_onSpace (Growth.blind_zeroAll h ids)
  have blocks := fun remaining count ids => blind_onStorage (blind_fillBlocks h remaining count ids)
  unfold fill
  refine (blind_supply _ _).bind fun _ => ?_
  refine (blind_modifyRecord _).bind fun _ => blind_ite (zeros _) ?_
  refine (blind_modifyRecord _).bind fun _ => (blocks _ _ _).bind fun _ => blind_ite (zeros _) ?_
  refine (blind_modifyRecord _).bind fun _ => (blocks _ _ _).bind fun _ => ?_
  exact (blind_onStorage (blind_save h _ _)).bind fun _ => zeros _

theorem blind_populate (h : c.Hidden) (length : Nat) : Blind c.mapping (populate length) := by
  unfold populate
  refine blind_when (blind_fail _) (blind_ite (blind_pure _) ?_)
  refine (blind_onSpace (blind_allocate h _)).bind fun ids => ?_
  refine (blind_onStorage (h.blind_note _)).bind fun _ => ?_
  refine (blind_fill h _ ids).attempt.bind fun filled => ?_
  split
  · exact blind_pure _
  · refine (blind_onStorage (h.blind_note _)).bind fun _ => (blind_modifyRecord _).bind fun _ => ?_
    exact (blind_onSpace (blind_releaseAll h ids)).bind fun _ => blind_fail _

theorem blind_release (h : c.Hidden) : Blind c.mapping release := by
  unfold release
  refine blind_get_bind (fun _ _ _ => rfl) fun m => ?_
  refine (blind_onStorage (h.mapped _)).bind fun mapped => ?_
  refine blind_when (blind_violate _) ((blind_onSpace (blind_releaseAll h _)).bind fun _ => ?_)
  exact (blind_modifyRecord _).bind fun _ => blind_pure _

end Mapping

end SectorVolume
