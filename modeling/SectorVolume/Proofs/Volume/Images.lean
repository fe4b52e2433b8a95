import SectorVolume.Proofs.Volume.Inspection
import SectorVolume.Proofs.Volume.Remount
import SectorVolume.Proofs.Volume.Serving

/-!
# Volumes in images

Once everything was written back, what stands on the disk is an image of the volume: whoever opens
it finds the inodes with the same bytes and the same sectors, and the same sectors free.
-/

namespace SectorVolume

open SectorVolume.Action

/-- Storage that was written back shows what is on the disk. -/
theorem Storage.Good.mirrors {w : Prop} {n : Nat} {st : Storage} (h : st.Good w n []) (works : w)
    (flushed : st.Flushed) : st.Mirrors st.disk.content := by
  refine ⟨h.wellFormed, h.inhabited, .refl _, fun i l hl => ⟨?_, ?_⟩⟩
  · exact Nat.lt_of_lt_of_le (h.within works i l hl) (h.working works).room
  · rw [← logical_of_line h.wellFormed hl, ← flushed]
    rfl

theorem Disk.working_ofFile {content : Content} {n : Nat} (room : n ≤ content.length / sectorSize) :
    (Disk.ofFile content).Working n := ⟨nofun, room, rfl⟩

namespace Volume

variable [Promise] {v v' : Volume} {total : UInt32} {time : Int64} {disk disk' : Disk}
  {live : List SectorId} {held : List (SectorId × Bytes)} {content content' : Content}
  {c : Client}

/-- An inode that finds no sector leaves the disk as it is. -/
theorem Serves.mirrors_allocateInode (h : v.Serves total time c) (mirrors : v.Mirrors content) :
    Ends allocateInode v (fun _ _ => True) fun _ v' => v'.Mirrors content := by
  obtain ⟨trees, inv⟩ := h.inv
  have room := h.room
  have small := total.toNat_lt
  have sectors := h.sectors
  have placed : (FreeMap.ofTotal total.toNat).Placed Promise.sectors :=
    FreeMap.placed_ofTotal (by omega) (by rw [sectors]; exact Nat.le_of_lt small) small
  exact Volume.mirrors_allocateInode mirrors placed h.allocator inv.space.storage h.works

/-- A disk with a sector for each sector of the volume can be set up, if there is room for more than
the superblock and the bitmap. -/
theorem serves_format (works : Promise.works) (sectors : Promise.sectors = total.toNat)
    (working : disk.Working total.toNat) (log : Log) (capacity : Nat) (time : Int64) :
    match format disk log total capacity time with
    | .ok v => v.Serves total time .empty
    | .error _ => ¬ Cache.Fits capacity ∨ total.toNat ≤ 1 + bitmapSectors total.toNat := by
  have small := total.toNat_lt
  by_cases room : 1 + bitmapSectors total.toNat < total.toNat
  · have cases := format_cases log capacity time (fun _ => sectors ▸ working)
      (Nat.le_of_eq sectors.symm) (by rw [sectors]; exact Nat.le_of_lt small) room
    cases made : format disk log total capacity time with
    | ok v =>
      rw [made] at cases
      exact cases.1.serves works sectors room
    | error aborted =>
      rw [made] at cases
      refine .inl fun fits => cases.elim (fun ⟨violation, no⟩ => ?_) fun no => no works
      obtain ⟨cache, yes⟩ := Cache.fits_iff.1 fits
      rw [yes] at no
      cases no
  · unfold format
    simp only
    rw [if_pos (Nat.not_lt.1 room)]
    exact .inr (Nat.not_lt.1 room)

/-- The content of a disk with a volume on it: the live inodes are there, and each of those in
`held` has the bytes that stand with it. -/
structure Image (total : UInt32) (time : Int64) (live : List SectorId)
    (held : List (SectorId × Bytes)) (content : Content) : Prop where
  works : Promise.works
  sectors : Promise.sectors = total.toNat
  room : 1 + bitmapSectors total.toNat < total.toNat
  working : (Disk.ofFile content).Working total.toNat
  label : Superblock.ofSector ((Disk.ofFile content).sector 0) = Superblock.ofTotal total time
  found : ∀ v : Volume, v.Mounted (Disk.ofFile content) total time →
    (∃ trees, v.Inv 0 ⟨[], live, [], .empty⟩ trees) ∧ ∀ e ∈ held, e.1 ∈ live ∧ v.Stores e.1 e.2

/-- The number of free sectors that the content of a disk shows. -/
def freeIn (total : UInt32) (content : Content) : Nat :=
  (FreeMap.ofTotal total.toNat).clearBits fun s => content.sector s.toNat

omit [Promise] in
theorem freeIn_alike (h : content.Alike content') : freeIn total content' = freeIn total content := by
  unfold freeIn
  rw [funext h.sector]

omit [Promise] in
theorem freeIn_of_flushed (flushed : v.space.storage.Flushed) :
    freeIn total v.space.storage.disk.content =
      (FreeMap.ofTotal total.toNat).clearBits v.space.storage.logical := by
  have same : (fun s : SectorId => v.space.storage.disk.content.sector s.toNat) =
      v.space.storage.logical := funext flushed
  unfold freeIn
  rw [same]

/-- The volume was just opened on an image. -/
structure Loaded (total : UInt32) (time : Int64) (live : List SectorId)
    (held : List (SectorId × Bytes)) (content : Content) (v : Volume) : Prop where
  serves : v.Serves total time ⟨[], live, [], .empty⟩
  mirrors : v.Mirrors content
  superblock : v.superblock = some (.ofTotal total time)
  free : (FreeMap.ofTotal total.toNat).clearBits v.space.storage.logical = freeIn total content
  held : ∀ e ∈ held, e.1 ∈ live ∧ v.Stores e.1 e.2

theorem Mounted.congr (h : v.Mounted disk total time) (sector : ∀ n, disk'.sector n = disk.sector n)
    (failures : disk'.failures = disk.failures) : v.Mounted disk' total time :=
  ⟨h.storage, h.logical.trans (funext fun s => (sector s.toNat).symm), failures ▸ h.failures,
    h.allocator, h.superblock, h.nodes, h.table⟩

namespace Image

theorem congr (h : Image total time live held content) (alike : content.Alike content') :
    Image total time live held content' := by
  have sector : ∀ n, (Disk.ofFile content').sector n = (Disk.ofFile content).sector n := alike.sector
  refine ⟨h.works, h.sectors, h.room, Disk.working_ofFile ?_, by rw [sector, h.label],
    fun v mounted => ?_⟩
  · rw [alike.length]
    exact h.working.room
  · exact h.found v (mounted.congr (fun n => (sector n).symm) rfl)

/-- Fewer inodes may be asked for. -/
theorem mono (h : Image total time live held content) {held' : List (SectorId × Bytes)}
    (sub : held' ⊆ held) : Image total time live held' content :=
  ⟨h.works, h.sectors, h.room, h.working, h.label, fun v mounted =>
    ⟨(h.found v mounted).1, fun e he => (h.found v mounted).2 e (sub he)⟩⟩

/-- The image can be opened with every cache that there can be. -/
theorem open_cases (h : Image total time live held content) (log : Log) (capacity : Nat) :
    match «open» (Disk.ofFile content) log capacity with
    | .ok v => v.Loaded total time live held content
    | .error aborted => ¬ Cache.Fits capacity ∧ ∃ violation, aborted.cause = .violation violation := by
  have working : (Disk.ofFile content).Working Promise.sectors := h.sectors ▸ h.working
  have some : 0 < Promise.sectors := by
    have room := h.room
    rw [h.sectors]
    omega
  cases e : Cache.create capacity with
  | error violation =>
    unfold «open» start
    rw [e]
    refine ⟨fun fits => ?_, violation, rfl⟩
    obtain ⟨cache, e'⟩ := Cache.fits_iff.1 fits
    rw [e] at e'
    cases e'
  | ok cache =>
    have opening := Volume.open_cases log e (fun _ => working) some h.label
    have mirroring := mirrors_open (Disk.ofFile content) log capacity
    cases opened : «open» (Disk.ofFile content) log capacity with
    | error aborted =>
      rw [opened] at opening
      exact absurd h.works opening.2.2
    | ok v =>
      rw [opened] at opening mirroring
      have mounted : v.Mounted (Disk.ofFile content) total time := opening
      obtain ⟨inv, stores⟩ := h.found v mounted
      refine ⟨⟨h.works, h.sectors, h.room, inv, mounted.allocator, ?_⟩, mirroring,
        mounted.superblock, congrArg _ mounted.logical, stores⟩
      rw [mounted.logical]
      exact h.label

theorem exists_loaded (h : Image total time live held content) :
    ∃ v : Volume, v.Loaded total time live held content := by
  have opening := h.open_cases {} 1
  cases opened : «open» (Disk.ofFile content) {} 1 with
  | ok v =>
    rw [opened] at opening
    exact ⟨v, opening⟩
  | error aborted =>
    rw [opened] at opening
    exact absurd (by decide : Cache.Fits 1) opening.1

theorem mem_live (h : Image total time live held content) {e : SectorId × Bytes} (he : e ∈ held) :
    e.1 ∈ live :=
  let ⟨_, loaded⟩ := h.exists_loaded
  (loaded.held e he).1

theorem inside (h : Image total time live held content) {s : SectorId} (hs : s ∈ live) :
    1 + bitmapSectors total.toNat ≤ s.toNat ∧ s.toNat < total.toNat :=
  let ⟨_, loaded⟩ := h.exists_loaded
  loaded.serves.inside hs

/-- Every inode stands in a sector of its own. -/
theorem nodup (h : Image total time live held content) : live.Nodup := by
  obtain ⟨v, loaded⟩ := h.exists_loaded
  obtain ⟨trees, inv⟩ := loaded.serves.inv
  exact inv.owns.nodup_live

/-- Without inodes all sectors behind the bitmap are free. -/
theorem freeIn_eq (h : Image total time [] [] content) :
    freeIn total content = total.toNat - (1 + bitmapSectors total.toNat) := by
  obtain ⟨v, loaded⟩ := h.exists_loaded
  have added := loaded.serves.spare_add
  have none : (v.holdings ⟨[], [], [], .empty⟩).length = 0 := rfl
  rw [none, Nat.add_zero] at added
  exact loaded.free.symm.trans added

end Image

omit [Promise] in
/-- What it takes to open a volume. -/
theorem needs_of_open {v : Volume} {log : Log} {capacity : Nat}
    (opened : «open» disk log capacity = .ok v) : Cache.Fits capacity ∧ disk.content.Has 0 := by
  unfold «open» start at opened
  cases e : Cache.create capacity with
  | error violation =>
    rw [e] at opened
    cases opened
  | ok cache =>
    rw [e] at opened
    refine ⟨Cache.fits_iff.2 ⟨cache, e⟩, ?_⟩
    have reading : Ends recognise ⟨disk, cache, log⟩ (fun _ _ => disk.content.Has 0) fun _ _ => True :=
      (Storage.mirrors_readView (Storage.mirrors_of_create e disk log) _ 0 0).bind
        (fun _ _ h => (ends_trivial _ _).mono (fun _ _ _ => h.2.1) fun _ _ h => h) fun _ _ _ => trivial
    simp only at opened
    cases run : recognise ⟨disk, cache, log⟩ with
    | ok r st => exact reading.ok run
    | error cause st =>
      rw [run] at opened
      cases opened

/-- What a volume leaves on the disk when everything was written back. -/
theorem Serves.image {handles : Handles} (h : v.Serves total time ⟨[], live, [], handles⟩)
    (flushed : v.space.storage.Flushed) (stores : ∀ e ∈ held, e.1 ∈ live ∧ v.Stores e.1 e.2) :
    Image total time live held v.space.storage.disk.content := by
  obtain ⟨trees, inv⟩ := h.inv
  have working := inv.space.storage.working h.works
  refine ⟨h.works, h.sectors, h.room, Disk.working_ofFile (h.sectors ▸ working.room), ?_,
    fun v' mounted => ?_⟩
  · rw [← h.label, ← flushed]
    rfl
  · replace mounted : v'.Mounted v.space.storage.disk total time :=
      mounted.congr (fun _ => rfl) working.clean
    obtain ⟨inv', files⟩ := mounted.inv inv h.clean flushed h.allocator
    refine ⟨⟨_, inv'⟩, fun e he => ?_⟩
    obtain ⟨live, stores⟩ := stores e he
    obtain ⟨-, -, same, -⟩ := files e.1 live
    exact ⟨live, same.stores stores⟩

end Volume

end SectorVolume
