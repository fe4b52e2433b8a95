import SectorVolume.Proofs.Allocation.Clear
import SectorVolume.Proofs.Cache.Confinement
import SectorVolume.Proofs.Volume.Remount

/-!
# A new volume is found again

Setting up a volume asks for the superblock's sector and the bitmap only, so the disk stays as it is
behind them. At the end all was written back: whoever opens the disk then, with a cache of any size,
finds the superblock and a bitmap in which all other sectors are free.
-/

namespace SectorVolume

open SectorVolume.Action

variable {writes : Prop} {n : Nat} {c : Content}

/-! ## Which sectors are asked for -/

namespace FreeMap

open Storage

variable {m : FreeMap}

theorem confined_format (hp : m.Stands n) (may : writes) (reserved : Nat) :
    Preserves (Storage.Confined writes n c) (m.format reserved) := by
  unfold format
  refine Preserves.bind (preserves_forEach fun i _ hi => ?_) fun _ => confined_note _
  have hi : i < m.sectors := by omega
  rw [hp.sectorAt_eq hi, pure_bind]
  exact confined_modifySector may (hp.block_lt hi) _

theorem confined_freeFrom (hp : m.Stands n) (i free count : Nat) (all : i + count = m.sectors) :
    Preserves (Storage.Confined writes n c) (m.freeFrom i free count) := by
  induction count generalizing i free with
  | zero => exact preserves_pure _
  | succ count ih =>
    have hi : i < m.sectors := by omega
    unfold freeFrom
    rw [hp.sectorAt_eq hi, pure_bind]
    exact (confined_readSector (hp.block_lt hi)).bind fun s => ih (i + 1) _ (by omega)

end FreeMap

namespace Storage

variable {st : Storage}

theorem confined_clearSectors (may : writes) {count : Nat} (room : count ≤ n)
    (words : n ≤ wordRange32) : Preserves (Confined writes n c) (Volume.clearSectors count) := by
  refine preserves_forEach fun i _ hi => ?_
  have words : n ≤ 2 ^ 32 := words
  have number : (UInt32.ofNat i).toNat = i := UInt32.toNat_ofNat_of_lt' (by show i < 2 ^ 32; omega)
  exact confined_write may (by omega) 0 _

/-- When a volume was put on the disk nothing is left to be written. -/
theorem ends_layOut_confined (h : st.Confined True n c) (words : n ≤ wordRange32) {total : UInt32}
    (time : Int64) (room : 1 + bitmapSectors total.toNat ≤ n) :
    Ends (Volume.layOut total time) st
      (fun r st' => r.2 = FreeMap.ofTotal total.toNat ∧ st'.Confined False n c) fun _ _ => True := by
  have stands := (FreeMap.placed_ofTotal room words total.toNat_lt).stands
  have zero : (0 : SectorId).toNat < n := by
    show 0 < n
    omega
  unfold Volume.layOut
  refine (confined_clearSectors trivial room words st h).bind (fun _ st₁ h₁ => ?_)
    fun _ _ _ => trivial
  refine (confined_overwriteSector trivial zero _ st₁ h₁).bind (fun _ st₂ h₂ => ?_)
    fun _ _ _ => trivial
  rw [FreeMap.create_eq total.toNat_lt]
  refine (ends_pure (d := fun m st' => m = FreeMap.ofTotal total.toNat ∧ st' = st₂)
    (f := fun _ _ => True) ⟨rfl, rfl⟩).bind ?_ fun _ _ _ => trivial
  rintro _ _ ⟨rfl, rfl⟩
  refine (FreeMap.confined_format stands trivial _ _ h₂).bind (fun _ st₃ h₃ => ?_)
    fun _ _ _ => trivial
  refine ((confined_flushAll st₃ h₃).and (ends_flushAll_clean h₃.wellFormed)).bind
    (fun _ st₄ h₄ => ?_) fun _ _ _ => trivial
  exact ends_pure ⟨rfl, h₄.1.clean h₄.2⟩

theorem confined_announce {m : FreeMap} (hp : m.Stands n) (total : UInt32) :
    Preserves (Confined writes n c) (Volume.announce total m) := by
  unfold Volume.announce
  refine preserves_get.bind fun st => ?_
  split
  · exact (FreeMap.confined_freeFrom hp 0 0 _ (Nat.zero_add _)).bind fun _ => confined_note _
  · exact preserves_pure _

theorem ends_initialise_confined (h : st.Confined True n c) (words : n ≤ wordRange32)
    {total : UInt32} (time : Int64) (room : 1 + bitmapSectors total.toNat ≤ n) :
    Ends (Volume.initialise total time) st (fun _ st' => st'.Confined False n c)
      fun _ _ => True := by
  have stands := (FreeMap.placed_ofTotal room words total.toNat_lt).stands
  rw [Volume.initialise_eq]
  refine (ends_layOut_confined h words time room).bind (fun r st₁ h₁ => ?_) fun _ _ _ => trivial
  obtain ⟨map, clean⟩ := h₁
  rw [map]
  exact ((confined_announce stands total).bind fun _ => preserves_pure _) st₁ clean |>.mono
    (fun _ _ h => h) fun _ _ _ => trivial

theorem Confined.dirtyCount_eq (h : st.Confined False n c) : st.cache.dirtyCount = 0 := by
  unfold Cache.dirtyCount
  rw [Array.countP_eq_zero]
  intro s mem
  obtain ⟨i, lt, rfl⟩ := Array.mem_iff_getElem.1 mem
  have clean := h.not_dirty i
  rwa [Cache.slot, Array.getD_eq_getD_getElem?, Array.getElem?_eq_getElem lt] at clean

end Storage

namespace Volume

/-- A volume was just set up on a disk and is on it as a whole. Behind its bitmap the disk is as it
was. -/
structure Formatted (disk : Disk) (total : UInt32) (time : Int64) (v : Volume) : Prop where
  superblock : v.superblock = some (Superblock.ofTotal total time)
  written : v.space.storage.cache.dirtyCount = 0
  length : v.space.storage.disk.content.length = disk.content.length
  behind : ∀ n, 1 + bitmapSectors total.toNat ≤ n → v.space.storage.disk.sector n = disk.sector n

/-- A volume as it was set up: all sectors behind the bitmap are free, up to its end. -/
structure Pristine (total : UInt32) (time : Int64) (v : Volume) : Prop where
  superblock : v.superblock = some (Superblock.ofTotal total time)
  allocator : v.space.allocator = .bitmap (FreeMap.ofTotal total.toNat)
  free : (FreeMap.ofTotal total.toNat).clear v.space.storage.logical =
    List.range' (1 + bitmapSectors total.toNat) (total.toNat - (1 + bitmapSectors total.toNat))
  nodes : v.nodes = #[]
  table : v.table = []

variable {disk : Disk} {total : UInt32} {capacity : Nat} {time : Int64} {v : Volume}

/-- On a disk that works nothing stops the setting up of a volume. -/
theorem ends_initialise_settled {log : Log} {cache : Cache} (e : Cache.create capacity = .ok cache)
    (total : UInt32) (time : Int64) (works : disk.Working (1 + bitmapSectors total.toNat)) :
    Ends (initialise total time) ⟨disk, cache, log⟩
      (fun r st => r = (Superblock.ofTotal total time, FreeMap.ofTotal total.toNat) ∧
        st.Good True (1 + bitmapSectors total.toNat) [] ∧
        st.Confined False (1 + bitmapSectors total.toNat) disk.content ∧
        Storage.SetUp total time (fun s => disk.sector s.toNat) st.logical)
      fun _ _ => False := by
  have words := reserved_le total
  obtain ⟨good, logical⟩ : Storage.Good True _ [] ⟨disk, cache, log⟩ ∧ _ :=
    Storage.good_of_create e fun _ => works
  have confined : Storage.Confined True _ _ _ :=
    Storage.confined_of_create e (fun _ => works.room) log
  have run := (Storage.meets_initialise good words time (Nat.le_refl _)).ends.and
    (Storage.ends_initialise_confined confined words time (Nat.le_refl _))
  refine run.mono ?_ ?_
  · rintro r st ⟨⟨rfl, L, setUp, becomes⟩, confined⟩
    rw [logical, ← becomes.logical] at setUp
    exact ⟨rfl, becomes.good, confined, setUp⟩
  · rintro _ st ⟨⟨_, -, no⟩, -⟩
    exact no trivial

/-- The bits of a new bitmap are found in it. -/
theorem clear_of_setUp {L L' : SectorId → Sector} (h : Storage.SetUp total time L L') :
    (FreeMap.ofTotal total.toNat).clear L' =
      List.range' (1 + bitmapSectors total.toNat) (total.toNat - (1 + bitmapSectors total.toNat)) := by
  have enough := le_bitmapSectors total.toNat
  refine FreeMap.clear_eq List.pairwise_lt_range' fun k => ?_
  rw [FreeMap.mem_clear, List.mem_range'_1]
  show k < bitmapSectors total.toNat * 4096 ∧ _ ↔ _
  by_cases lt : k < bitmapSectors total.toNat * 4096
  · rw [h.bits k lt, FreeMap.fresh_eq_false_iff]
    omega
  · omega

/-- What was set up and written back is found on the disk. -/
theorem pristine_of_open {st : Storage} {w : Prop} {n : Nat} (good : st.Good w n []) (holds : w)
    (some : 0 < n) (flushed : st.Flushed) {L : SectorId → Sector}
    (setUp : Storage.SetUp total time L st.logical) (log : Log) (fits : Cache.Fits capacity) :
    ∃ v, «open» st.disk log capacity = .ok v ∧ v.Pristine total time := by
  let : Promise := ⟨w, n⟩
  obtain ⟨cache, e⟩ := Cache.fits_iff.1 fits
  have label : Superblock.ofSector (st.disk.sector 0) = Superblock.ofTotal total time := by
    have first : st.disk.sector 0 = st.logical 0 := flushed 0
    rw [first, setUp.first, Superblock.ofSector_store]
  have cases := open_cases log e good.working some label
  cases opened : «open» st.disk log capacity with
  | error aborted =>
    rw [opened] at cases
    exact absurd holds cases.2.2
  | ok v =>
    rw [opened] at cases
    have mounted : v.Mounted st.disk total time := cases
    refine ⟨v, rfl, mounted.superblock, mounted.allocator, ?_, mounted.nodes, mounted.table⟩
    rw [mounted.logical_eq flushed]
    exact clear_of_setUp setUp

/-- A volume without room for more than its superblock and its bitmap is refused at once. On a disk
that works and has room for these any other volume is set up, with all of it on the disk and nothing
else changed there, and opening the disk yields it again, whatever size the caches have. -/
theorem format_found_again (disk : Disk) (log : Log) (total : UInt32) (capacity : Nat) (time : Int64)
    (works : disk.Working (1 + bitmapSectors total.toNat)) :
    if total.toNat ≤ 1 + bitmapSectors total.toNat then
      format disk log total capacity time =
        .error ⟨.fault (.outOfRange (UInt32.ofNat (1 + bitmapSectors total.toNat)) total), disk, log⟩
    else
      Cache.Fits capacity → ∃ v, format disk log total capacity time = .ok v ∧
        v.Formatted disk total time ∧
        ∀ log' capacity', Cache.Fits capacity' →
          ∃ v', «open» v.space.storage.disk log' capacity' = .ok v' ∧ v'.Pristine total time := by
  unfold format
  simp only
  split
  · rfl
  intro fits
  have cases := start_cases disk log capacity fun _ e => ends_initialise_settled e total time works
  cases new : start disk log capacity (initialise total time) with
  | error aborted =>
    rw [new] at cases
    obtain ⟨cache, e⟩ := Cache.fits_iff.1 fits
    rcases cases with ⟨violation, none, -⟩ | ⟨_, no, -⟩
    · rw [e] at none
      cases none
    · exact no.elim
  | ok v =>
    rw [new] at cases
    obtain ⟨-, r, st, ⟨rfl, good, confined, setUp⟩, rfl⟩ := cases
    refine ⟨_, rfl, ⟨rfl, confined.dirtyCount_eq, confined.length, confined.behind⟩,
      fun log' capacity' fits' => ?_⟩
    exact pristine_of_open good trivial (by omega) (good.flushed confined.not_dirty) setUp log' fits'

/-- In a memory of 3 sectors a volume is set up with one slot and opened with two. -/
theorem format_found_again_of_memory : (Disk.memory 3).Working (1 + bitmapSectors (3 : UInt32).toNat) ∧
    ∃ v, format (Disk.memory 3) {} 3 1 0 = .ok v ∧ v.Formatted (Disk.memory 3) 3 0 ∧
      ∃ v', «open» v.space.storage.disk {} 2 = .ok v' ∧ v'.Pristine 3 0 := by
  have works : (Disk.memory 3).Working (1 + bitmapSectors (3 : UInt32).toNat) :=
    ⟨nofun, by decide, rfl⟩
  have found := format_found_again (Disk.memory 3) {} 3 1 0 works
  rw [if_neg (by decide)] at found
  obtain ⟨v, new, formatted, again⟩ := found (by decide)
  exact ⟨works, v, new, formatted, again {} 2 (by decide)⟩

/-- On the same memory the volume is not set up if the slots are beyond all memory. -/
theorem format_of_too_many_slots : (Disk.memory 3).Working (1 + bitmapSectors (3 : UInt32).toNat) ∧
    1 + bitmapSectors (3 : UInt32).toNat < (3 : UInt32).toNat ∧
    format (Disk.memory 3) {} 3 1152921504606846976 0 =
      .error ⟨.violation .tooManySlots, Disk.memory 3, {}⟩ := by
  refine ⟨⟨nofun, by decide, rfl⟩, by decide, ?_⟩
  have create : Cache.create 1152921504606846976 = .error .tooManySlots := rfl
  unfold format start
  rw [create]
  rfl

end Volume

end SectorVolume
