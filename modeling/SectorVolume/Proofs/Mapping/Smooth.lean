import SectorVolume.Mapping.Growth
import SectorVolume.Proofs.Allocation.Clear
import SectorVolume.Proofs.Mapping.Reading

/-!
# A growth passes no failed transfer over

An allocation or a growth catches faults on the way, so that something can be given back or written
before, but answers with them all the same. So after one that succeeded as many transfers have
failed as before.
-/

namespace SectorVolume

open SectorVolume.Action

variable {α : Type}

open Storage (smooth_readSector smooth_modifySector smooth_replaceSector smooth_write smooth_note)

theorem IndexBlock.smooth_load (sector : SectorId) : Smooth Storage.failures (load sector) :=
  (smooth_readSector sector).bind fun _ => smooth_pure _

theorem IndexBlock.smooth_save (sector : SectorId) (block : IndexBlock) :
    Smooth Storage.failures (save sector block) := smooth_replaceSector sector _

open IndexBlock (smooth_load smooth_save)

/-! ## The allocator -/

/-- What was taken is only given back when the allocation fails. -/
theorem FreeMap.smooth_takeMore (m : FreeMap) (requested : Nat) (taken : List SectorId)
    (missing : Nat) : Smooth Storage.failures (m.takeMore requested taken missing) := by
  induction missing generalizing taken with
  | zero => exact smooth_pure _
  | succ missing ih =>
    unfold takeMore
    refine (m.smooth_takeFrom 0 m.sectors).caught (fun found => ?_) fun c =>
      Fails.after fun _ => fails_fail c
    cases found with
    | some id => exact ih _
    | none => exact Fails.smooth (Fails.after fun _ => fails_fail _)

theorem FreeMap.smooth_allocate (m : FreeMap) (count : Nat) :
    Smooth Storage.failures (m.allocate count) := by
  unfold allocate
  exact smooth_when (smooth_violate _) (m.smooth_takeMore count [] count)

namespace Space

/-- The number of transfers that failed so far. -/
def failures (sp : Space) : Nat := sp.storage.failures

theorem smooth_onStorage {x : Action Storage α} (h : Smooth Storage.failures x) :
    Smooth failures (onStorage x) := fun sp =>
  (ends_onStorage (h sp.storage)).mono (fun _ _ h => h.1) fun _ _ _ => trivial

theorem smooth_allocate (count : Nat) : Smooth failures (allocate count) := by
  unfold allocate
  refine smooth_get.bind fun sp => ?_
  split
  · next map _ => exact smooth_onStorage (map.smooth_allocate count)
  · split
    · exact Smooth.bind (smooth_modify fun _ => rfl) fun _ => smooth_pure _
    · exact smooth_fail _

end Space

open Space (smooth_onStorage smooth_allocate)

/-! ## Growing -/

namespace Mapping

/-- The number of transfers that failed so far. -/
def failures (m : Mapping) : Nat := m.space.failures

theorem smoothIf_onSpace {good : α → Prop} {x : Action Space α}
    (h : SmoothIf Space.failures good x) : SmoothIf failures good (onSpace x) := by
  rintro ⟨space, record⟩
  have run := h space
  unfold Ends at run ⊢
  unfold onSpace
  simp only
  cases e : x space with
  | ok | error =>
    rw [e] at run
    exact run

theorem smooth_onSpace {x : Action Space α} (h : Smooth Space.failures x) :
    Smooth failures (onSpace x) := smoothIf_onSpace h

theorem smooth_modifyRecord (f : Record → Record) : Smooth failures (modifyRecord f) :=
  smooth_modify fun _ => rfl

end Mapping

open Mapping (smooth_onSpace smoothIf_onSpace smooth_modifyRecord)

namespace Growth

theorem smooth_zeroAll (ids : List SectorId) : Smooth Space.failures (zeroAll ids) := by
  induction ids with
  | nil => exact smooth_pure _
  | cons id rest ih => exact (smooth_onStorage (smooth_write id 0 _)).bind fun _ => ih

theorem smooth_allocateZeroed (count : Nat) : Smooth Space.failures (allocateZeroed count) := by
  unfold allocateZeroed
  refine (smooth_allocate count).bind fun ids => ?_
  exact (smooth_zeroAll ids).caught (fun _ => smooth_pure _)
    fun _ => Fails.after fun _ => fails_fail _

theorem smooth_allocateOne : Smooth Space.failures allocateOne :=
  (smooth_allocateZeroed 1).bind fun _ => smooth_pure _

theorem smooth_backfill {n : Nat} (entries : Vector SectorId n) (i : Fin n) :
    Smooth Space.failures (backfill entries i) := by
  unfold backfill
  exact smooth_ite (smooth_pure _) ((smooth_allocateZeroed _).bind fun _ => smooth_pure _)

theorem smooth_ensureEntry (block : SectorId) (i : Fin 128) :
    Smooth Space.failures (ensureEntry block i) := by
  unfold ensureEntry
  refine (smooth_onStorage (smooth_load block)).bind fun entries => ?_
  refine smooth_ite (smooth_pure _) ((smooth_backfill entries i).bind fun grown => ?_)
  exact (smooth_onStorage (smooth_save block grown)).bind fun _ => smooth_pure _

/-- A fault on the way is handed over with the top block. -/
theorem smooth_growChildren (top : IndexBlock) (cursor count : Nat) :
    SmoothIf Space.failures (·.2 = .ok ()) (growChildren top cursor count) := by
  induction count generalizing top cursor with
  | zero => exact smooth_pure _
  | succ count ih =>
    unfold growChildren
    refine smooth_allocateOne.caught (fun child => ?_) fun _ => fails_pure nofun
    refine smooth_ite (smooth_pure _) ?_
    exact (smooth_ensureEntry _ _).caught (fun _ => ih _ _) fun _ => fails_pure nofun

theorem smooth_growTop (top : IndexBlock) (first outer : Nat) :
    SmoothIf Space.failures (·.2 = .ok ()) (growTop top first outer) := by
  unfold growTop
  extract_lets rest
  have full : ∀ x, SmoothIf Space.failures (·.2 = .ok ()) (rest (.ok x)) :=
    fun _ => smooth_growChildren _ _ _
  refine smooth_ite ?_ ((smooth_ensureEntry _ _).caught full fun _ => fails_pure nofun)
  rw [pure_bind]
  exact full 0

theorem smooth_ensureDirect (i : Fin 12) : Smooth Mapping.failures (ensureDirect i) := by
  unfold ensureDirect
  refine smooth_get.bind fun m => (smooth_onSpace (smooth_backfill _ i)).bind fun direct => ?_
  exact (smooth_modifyRecord _).bind fun _ => smooth_pure _

theorem smooth_ensureIndirect (i : Fin 128) : Smooth Mapping.failures (ensureIndirect i) := by
  have entry : Smooth Mapping.failures
      (do ensureEntry (← get).record.indirect i : Action Mapping SectorId) :=
    smooth_get.bind fun m => smooth_onSpace (smooth_ensureEntry _ i)
  unfold ensureIndirect
  refine smooth_get.bind fun m => smooth_ite ?_ entry
  refine (smooth_ensureDirect _).bind fun _ => ?_
  refine (smooth_onSpace smooth_allocateOne).bind fun sector => ?_
  refine (smooth_modifyRecord _).bind fun _ => Smooth.bind ?_ fun _ => entry
  exact smooth_onSpace (smooth_onStorage (smooth_note _))

theorem smooth_ensureDouble (outer inner : Fin 128) :
    Smooth Mapping.failures (ensureDouble outer inner) := by
  unfold ensureDouble
  refine smooth_get.bind fun m => ?_
  extract_lets rest
  have below : Smooth Mapping.failures (rest ⟨⟩) := by
    refine smooth_get.bind fun m => ?_
    refine (smooth_onSpace (smooth_onStorage (smooth_load _))).bind fun top => ?_
    refine smooth_ite (smooth_onSpace (smooth_ensureEntry _ _)) ?_
    refine (smoothIf_onSpace (smooth_growTop top _ outer)).bind (fun r _ => ?_) fun r failed => ?_
    · refine (smooth_onSpace (smooth_onStorage (smooth_save _ _))).bind fun _ => ?_
      exact (smooth_resume _).bind fun _ => smooth_onSpace (smooth_ensureEntry _ _)
    · obtain ⟨top, grown⟩ := r
      cases grown with
      | ok _ => exact absurd rfl failed
      | error c => exact Fails.after fun _ => (fails_fail c).bind
  refine smooth_ite ?_ below
  refine (smooth_ensureIndirect _).bind fun _ => ?_
  refine (smooth_onSpace smooth_allocateOne).bind fun sector => ?_
  refine (smooth_modifyRecord _).bind fun _ => Smooth.bind ?_ fun _ => below
  exact smooth_onSpace (smooth_onStorage (smooth_note _))

theorem smooth_ensure (offset : Nat) : Smooth Mapping.failures (ensure offset) := by
  unfold ensure
  split
  · exact smooth_pure _
  · exact (smooth_ensureDirect _).bind fun _ => smooth_pure _
  · exact (smooth_ensureIndirect _).bind fun _ => smooth_pure _
  · exact (smooth_ensureDouble _ _).bind fun _ => smooth_pure _

end Growth

end SectorVolume
