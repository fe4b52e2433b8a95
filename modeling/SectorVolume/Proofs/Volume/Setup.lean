import SectorVolume.Proofs.Allocation.Counting
import SectorVolume.Proofs.Cache.Flushing
import SectorVolume.Proofs.Layout.Plain
import SectorVolume.Proofs.Volume.Closing
import SectorVolume.Volume.Lifecycle

/-!
# New volumes

A volume that was set up has the superblock and the bitmap in its first sectors; all other sectors
are free, and nobody holds any. Setting up succeeds on every disk that works and has room for more
than the superblock and the bitmap.
-/

namespace SectorVolume

open SectorVolume.Action

theorem le_bitmapSectors (total : Nat) : total ≤ bitmapSectors total * 4096 := by
  have size : sectorSize = 512 := rfl
  unfold bitmapSectors dataSectors
  rw [size]
  omega

theorem bitmapSectors_le {total : Nat} (h : total < wordRange32) :
    bitmapSectors total * 4096 ≤ wordRange32 := by
  have size : sectorSize = 512 := rfl
  have range : wordRange32 = 2 ^ 32 := rfl
  unfold bitmapSectors dataSectors
  rw [size]
  omega

/-- The superblock and the bitmap are among the sectors that have a number. -/
theorem reserved_le (total : UInt32) : 1 + bitmapSectors total.toNat ≤ wordRange32 := by
  have range : wordRange32 = 2 ^ 32 := rfl
  have bits := bitmapSectors_le total.toNat_lt
  omega

namespace Superblock

/-- The superblock of a new volume of `total` sectors. -/
def ofTotal (total : UInt32) (time : Int64) : Superblock :=
  make total 1 (UInt32.ofNat (SectorVolume.bitmapSectors total.toNat)) time

/-- A superblock that was written to a sector is read back from it. -/
theorem ofSector_store (sb : Superblock) (s : Sector) : ofSector (sb.store s) = sb := by
  have window : (sb.store s).window 0 24 (by decide) = sb.encode := by
    refine Vector.ext fun i hi => ?_
    unfold Sector.window
    rw [Vector.getElem_ofFn]
    exact (Sector.getElem_overlay_of_mem s (by omega) (Nat.zero_le _) (by simp; omega)).trans
      (by simp)
  unfold ofSector
  rw [window, decode_encode]

end Superblock

namespace FreeMap

/-- The bitmap of a volume of `total` sectors. -/
def ofTotal (total : Nat) : FreeMap := ⟨1, bitmapSectors total, total⟩

theorem create_eq {total : Nat} (h : total < wordRange32) :
    create 1 (bitmapSectors total) total = .ok (ofTotal total) := by
  have bits : sectorBits = 4096 := rfl
  have words : wordRange64 = 2 ^ 64 := rfl
  have le := le_bitmapSectors total
  have le' : bitmapSectors total * 4096 ≤ 2 ^ 32 := bitmapSectors_le h
  unfold create
  rw [bits, if_neg (by omega), if_neg (by omega)]
  rfl

theorem placed_ofTotal {total n : Nat} (room : 1 + bitmapSectors total ≤ n) (words : n ≤ wordRange32)
    (h : total < wordRange32) : (ofTotal total).Placed n :=
  ⟨room, words, bitmapSectors_le h, le_bitmapSectors total⟩

theorem not_holds_zero (total : Nat) : ¬ (ofTotal total).Holds 0 := fun holds =>
  absurd holds.1 (by decide : ¬ 1 ≤ 0)

theorem bounds_of_holds {m m' : FreeMap} {n : Nat} (hp : m.Placed n) (some : 0 < m.sectors)
    (holds : ∀ s, m.Holds s → m'.Holds s) :
    m'.start.toNat ≤ m.start.toNat ∧
      m.start.toNat + m.sectors ≤ m'.start.toNat + m'.sectors := by
  have room := hp.room
  have words : n ≤ 2 ^ 32 := hp.words
  have first := holds m.start ⟨Nat.le_refl _, by omega⟩
  have last : (UInt32.ofNat (m.start.toNat + m.sectors - 1)).toNat = m.start.toNat + m.sectors - 1 := by
    rw [UInt32.toNat_ofNat', Nat.mod_eq_of_lt (by omega)]
  have final := holds (UInt32.ofNat (m.start.toNat + m.sectors - 1)) (by
    unfold Holds
    rw [last]
    omega)
  unfold Holds at first final
  rw [last] at final
  omega

/-- The sectors behind a bitmap that begins with sector 1. -/
theorem usable_iff {total : Nat} {id : SectorId} :
    (id ≠ 0 ∧ ¬ (ofTotal total).Holds id ∧ id.toNat < (ofTotal total).total) ↔
      1 + bitmapSectors total ≤ id.toNat ∧ id.toNat < total := by
  have zero : id = 0 ↔ id.toNat = 0 := UInt32.toNat_inj.symm
  rw [Ne, zero]
  show id.toNat ≠ 0 ∧ ¬ (1 ≤ id.toNat ∧ id.toNat < 1 + bitmapSectors total) ∧ id.toNat < total ↔ _
  omega

theorem fresh_eq_false_iff {total k : Nat} :
    (ofTotal total).fresh (1 + bitmapSectors total) k = false ↔
      1 + bitmapSectors total ≤ k ∧ k < total := by
  unfold fresh
  rw [Bool.or_eq_false_iff, decide_eq_false_iff_not, decide_eq_false_iff_not]
  show ¬ k < 1 + bitmapSectors total ∧ ¬ k ≥ total ↔ _
  omega

/-- A bitmap is known by the sectors that it stands in. -/
theorem eq_of_holds {m m' : FreeMap} {n : Nat} (hp : m.Placed n) (hp' : m'.Placed n)
    (some : 0 < m.sectors) (holds : ∀ s, m'.Holds s ↔ m.Holds s) (total : m'.total = m.total) :
    m' = m := by
  have bounds := bounds_of_holds hp some fun s => (holds s).2
  have first := (holds m.start).2 ⟨Nat.le_refl _, by omega⟩
  have some' : 0 < m'.sectors := by
    unfold Holds at first
    omega
  have bounds' := bounds_of_holds hp' some' fun s => (holds s).1
  have start : m'.start = m.start := UInt32.toNat_inj.1 (by omega)
  have sectors : m'.sectors = m.sectors := by
    rw [start] at bounds bounds'
    omega
  obtain ⟨start₁, sectors₁, total₁⟩ := m'
  obtain ⟨start₂, sectors₂, total₂⟩ := m
  simp only at start sectors total
  rw [start, sectors, total]

end FreeMap

namespace Volume

/-- Puts the superblock and the bitmap of an empty volume on the disk. -/
def layOut (total : UInt32) (time : Int64) : Action Storage (Superblock × FreeMap) := do
  let bitmap := bitmapSectors total.toNat
  let reserved := 1 + bitmap
  clearSectors reserved
  let sb := Superblock.make total 1 (UInt32.ofNat bitmap) time
  saveSuperblock sb
  let map ← Action.ofExcept (FreeMap.create 1 bitmap total.toNat)
  map.format reserved
  let _ ← Storage.flushAll
  return (sb, map)

/-- Reports a new volume. Its free sectors are counted only if the report is kept. -/
def announce (total : UInt32) (map : FreeMap) : Action Storage Unit := do
  if (← get).log.keeps .info then
    let free ← map.freeCount
    Storage.note (.volumeFormatted total (bitmapSectors total.toNat) free)

/-- A volume is on the disk before it is reported. -/
theorem initialise_eq (total : UInt32) (time : Int64) :
    initialise total time = layOut total time >>= fun r => announce total r.2 >>= fun _ => pure r := by
  unfold initialise layOut announce
  simp only [bind_assoc, pure_bind]
  refine bind_congr fun _ => bind_congr fun _ => bind_congr fun map => bind_congr fun _ =>
    bind_congr fun _ => bind_congr fun st => ?_
  split
  · simp only [bind_assoc]
  · rw [pure_bind]

end Volume

namespace Storage

variable {w : Prop} {n : Nat} {st st' : Storage}

/-- The first `count` sectors are zero. -/
def cleared (count : Nat) (L : SectorId → Sector) (s : SectorId) : Sector :=
  if s.toNat < count then Sector.zero else L s

theorem meets_clearSectors (h : st.Good w n []) (words : n ≤ wordRange32) {count : Nat}
    (room : count ≤ n) :
    Meets (Volume.clearSectors count) st
      (fun _ st' => Becomes w n [] st st' (cleared count st.logical)) fun _ _ => ¬ w := by
  unfold Volume.clearSectors
  have none : Becomes w n [] st st (cleared 0 st.logical) := ⟨h, rfl, Nat.le_refl _⟩
  have all := meets_forEach (I := fun i (st' : Storage) => Becomes w n [] st st' (cleared i st.logical))
    (f := fun _ _ => ¬ w) (g := fun sector => writeZeros (UInt32.ofNat sector)) count none
    fun i st₁ _ hi h₁ => ?_
  · rwa [Nat.zero_add] at all
  · have words : n ≤ 2 ^ 32 := words
    have number : (UInt32.ofNat i).toNat = i := by
      rw [UInt32.toNat_ofNat', Nat.mod_eq_of_lt (by omega)]
    have inside : (UInt32.ofNat i).toNat < n := by omega
    refine (meets_writeZeros h₁.good inside).mono (fun _ _ h₂ => ?_) fun _ _ h₂ => h₂.2.1
    refine ⟨h₂.good, ?_, Nat.le_trans h₁.failures h₂.failures⟩
    rw [h₂.logical, h₁.logical]
    funext s
    unfold cleared
    by_cases here : s = UInt32.ofNat i
    · rw [here, Function.update_self, if_pos (by omega)]
    · have ne : s.toNat ≠ i := fun e => here (UInt32.toNat_inj.1 (e.trans number.symm))
      rw [Function.update_of_ne here]
      by_cases lt : s.toNat < i
      · rw [if_pos lt, if_pos (by omega)]
      · rw [if_neg lt, if_neg (by omega)]

/-- What is found in a storage after a volume was set up in it. -/
structure SetUp (total : UInt32) (time : Int64) (L L' : SectorId → Sector) : Prop where
  first : L' 0 = (Superblock.ofTotal total time).store Sector.zero
  bits : ∀ k, k < bitmapSectors total.toNat * 4096 →
    (FreeMap.ofTotal total.toNat).bit L' k =
      (FreeMap.ofTotal total.toNat).fresh (1 + bitmapSectors total.toNat) k
  others : ∀ s, 1 + bitmapSectors total.toNat ≤ s.toNat → L' s = L s

/-- A new volume is put on the disk unless that fails. -/
theorem meets_layOut (h : st.Good w n []) (words : n ≤ wordRange32) {total : UInt32} (time : Int64)
    (room : 1 + bitmapSectors total.toNat ≤ n) :
    Meets (Volume.layOut total time) st
      (fun r st' => r = (Superblock.ofTotal total time, FreeMap.ofTotal total.toNat) ∧
        (∃ L, SetUp total time st.logical L ∧ Becomes w n [] st st' L) ∧
        ∀ i, (st'.cache.slot i).isDirty ≠ true)
      fun _ _ => ¬ w := by
  have small := total.toNat_lt
  have placed := FreeMap.placed_ofTotal room words small
  unfold Volume.layOut
  refine (meets_clearSectors h words room).bind (fun _ st₁ h₁ => ?_) fun _ _ no => no
  have zero : (0 : SectorId).toNat < n := by
    show 0 < n
    omega
  refine (meets_overwriteSector h₁.good zero _).bind (fun _ st₂ h₂ => ?_) fun _ _ h₂ => h₂.2.1
  obtain ⟨b, blank, saved⟩ := h₂
  have cleared₀ : st₁.logical 0 = Sector.zero := by
    rw [h₁.logical]
    exact if_pos (show 0 < 1 + bitmapSectors total.toNat by omega)
  replace blank : b = Sector.zero := blank.elim (fun e => e.trans cleared₀) fun e => e
  rw [blank] at saved
  rw [FreeMap.create_eq small]
  refine Meets.bind (d := fun m st' => m = FreeMap.ofTotal total.toNat ∧ st' = st₂)
    (meets_pure ⟨rfl, rfl⟩) ?_ fun _ _ h => h
  rintro _ _ ⟨rfl, rfl⟩
  refine (FreeMap.meets_format placed.stands saved.good _).bind (fun _ st₃ h₃ => ?_)
    fun _ _ no => no.1.1
  obtain ⟨good, failures₃, turns⟩ := h₃
  have setUp : SetUp total time st.logical st₃.logical := by
    refine ⟨?_, turns.bits, fun s hs => ?_⟩
    · rw [turns.others 0 (FreeMap.not_holds_zero _), saved.logical, Function.update_self]
      rfl
    · have behind : ¬ (FreeMap.ofTotal total.toNat).Holds s := fun holds =>
        Nat.not_lt.2 hs holds.2
      have ne : s ≠ 0 := by
        rintro rfl
        exact absurd hs (by show ¬ 1 + _ ≤ 0; omega)
      rw [turns.others s behind, saved.logical, Function.update_of_ne ne, h₁.logical]
      exact if_neg (Nat.not_lt.2 hs)
  have becomes : Becomes w n [] st st₃ st₃.logical :=
    ⟨good, rfl, Nat.le_trans h₁.failures (Nat.le_trans saved.failures failures₃)⟩
  refine (meets_flushAll_clean good).bind (fun _ st₄ h₄ => ?_) fun _ _ h₄ => h₄.2.1
  exact meets_pure ⟨rfl, ⟨_, setUp, becomes.trans h₄.1⟩, h₄.2⟩

/-- Reporting a volume changes nothing, unless the disk fails then. -/
theorem meets_announce {m : FreeMap} (hp : m.Stands n) (h : st.Good w n []) (total : UInt32) :
    Meets (Volume.announce total m) st (fun _ st' => Same w n [] st st') (Breaks w n st) := by
  unfold Volume.announce
  refine meets_get ?_
  split
  · refine (FreeMap.meets_freeCount hp h).bind (fun _ st₁ h₁ => ?_) fun _ _ h₁ => h₁
    exact (meets_note h₁.1.good _).mono (fun _ _ h₂ => h₁.1.trans h₂) fun _ _ h₂ => h₂
  · exact meets_pure h.same

/-- A new volume is set up unless the disk fails. -/
theorem meets_initialise (h : st.Good w n []) (words : n ≤ wordRange32) {total : UInt32} (time : Int64)
    (room : 1 + bitmapSectors total.toNat ≤ n) :
    Meets (Volume.initialise total time) st
      (fun r st' => r = (Superblock.ofTotal total time, FreeMap.ofTotal total.toNat) ∧
        ∃ L, SetUp total time st.logical L ∧ Becomes w n [] st st' L)
      fun _ _ => ¬ w := by
  have stands := (FreeMap.placed_ofTotal room words total.toNat_lt).stands
  rw [Volume.initialise_eq]
  refine (meets_layOut h words time room).bind (fun r st₁ h₁ => ?_) fun _ _ no => no
  obtain ⟨rfl, ⟨L, setUp, becomes⟩, -⟩ := h₁
  refine (meets_announce stands becomes.good total).bind (fun _ st₂ same => ?_) fun _ _ h₂ => h₂.2.1
  exact meets_pure ⟨rfl, L, setUp, becomes.trans same⟩

end Storage

namespace Space

variable {sp : Space} {m : FreeMap} {total : Nat} {id : SectorId}

theorem usable_iff_of_bitmap [Promise] (h : sp.allocator = .bitmap (FreeMap.ofTotal total))
    (reach : total ≤ Promise.sectors) :
    sp.stock.Usable id ↔ 1 + bitmapSectors total ≤ id.toNat ∧ id.toNat < total := by
  unfold Stock.Usable stock
  simp only [h]
  refine Iff.trans ?_ FreeMap.usable_iff
  refine ⟨fun h' => ⟨h'.1, h'.2.1, h'.2.2.1⟩, fun h' => ⟨h'.1, h'.2.1, h'.2.2, ?_⟩⟩
  exact Nat.lt_of_lt_of_le h'.2.2 reach

theorem Sound.usable_iff [Promise] (sound : sp.Sound)
    (h : sp.allocator = .bitmap (FreeMap.ofTotal total)) :
    sp.stock.Usable id ↔ 1 + bitmapSectors total ≤ id.toNat ∧ id.toNat < total := by
  have valid := sound.allocator
  rw [h] at valid
  exact usable_iff_of_bitmap h valid.2.2

theorem free_iff_of_bitmap (h : sp.allocator = .bitmap m) :
    sp.stock.free id ↔ id.toNat < m.sectors * 4096 ∧ m.bit sp.storage.logical id.toNat = false := by
  unfold stock
  simp only [h]
  exact Iff.rfl

end Space

/-- The number of the free sectors, for the content `L`. -/
def Allocator.freeCount (L : SectorId → Sector) : Allocator → Nat
  | .bitmap m => m.clearBits L
  | .supplied supplier memory => (supplier.free memory).length

theorem Space.meets_freeCount [Promise] {sp : Space} (h : sp.Sound) :
    Meets freeCount sp
      (fun k sp' => sp.Rests sp' ∧ k = sp.allocator.freeCount sp.storage.logical) sp.Fails := by
  obtain ⟨storage, al⟩ := sp
  unfold freeCount
  refine meets_get ?_
  cases al with
  | supplied supplier memory => exact meets_pure ⟨h.rests, supplier.counted memory⟩
  | bitmap m =>
    have counting := Space.meets_onStorage_rests (d := (· = m.clearBits storage.logical)) h
      ((FreeMap.meets_freeCount h.allocator.1.stands h.storage).mono (fun _ _ h₁ => h₁) fun _ _ h => h)
    exact counting.mono (fun k sp₁ h₁ => ⟨h₁.2, h₁.1⟩) fun _ _ h => h

namespace Volume

variable [Promise] {disk : Disk} {log : Log} {total : UInt32} {capacity : Nat} {time : Int64}
  {v : Volume}

/-- A new volume, of which nobody holds anything. -/
structure Fresh (total : UInt32) (time : Int64) (v : Volume) : Prop where
  storage : v.space.storage.Good Promise.works Promise.sectors []
  allocator : v.space.allocator = .bitmap (FreeMap.ofTotal total.toNat)
  superblock : v.superblock = some (Superblock.ofTotal total time)
  nodes : v.nodes = #[]
  table : v.table = []
  content : ∃ L, Storage.SetUp total time L v.space.storage.logical

theorem Fresh.label (h : v.Fresh total time) :
    Superblock.ofSector (v.space.storage.logical 0) = Superblock.ofTotal total time := by
  obtain ⟨_, setUp⟩ := h.content
  rw [setUp.first]
  exact Superblock.ofSector_store ..

/-- All sectors that users can have are free. -/
theorem Fresh.free_iff (h : v.Fresh total time) (reach : total.toNat ≤ Promise.sectors)
    (id : SectorId) : v.space.stock.free id ↔ v.space.stock.Usable id := by
  have enough := le_bitmapSectors total.toNat
  rw [Space.free_iff_of_bitmap h.allocator, Space.usable_iff_of_bitmap h.allocator reach]
  show (id.toNat < bitmapSectors total.toNat * 4096 ∧ _) ↔ _
  by_cases lt : id.toNat < bitmapSectors total.toNat * 4096
  · obtain ⟨_, setUp⟩ := h.content
    rw [setUp.bits _ lt, FreeMap.fresh_eq_false_iff]
    omega
  · omega

theorem Fresh.sound (h : v.Fresh total time) (room : 1 + bitmapSectors total.toNat ≤ Promise.sectors)
    (words : Promise.sectors ≤ wordRange32) (reach : total.toNat ≤ Promise.sectors) :
    v.space.Sound := by
  have small := total.toNat_lt
  refine ⟨h.storage, ?_, fun id => (h.free_iff reach id).1⟩
  rw [h.allocator]
  exact ⟨FreeMap.placed_ofTotal room words small, small, reach⟩

theorem Fresh.inv (h : v.Fresh total time) (sound : v.space.Sound)
    (reach : total.toNat ≤ Promise.sectors) {floor : Nat} (since : floor ≤ v.space.stock.failures) :
    v.Inv floor Client.empty fun _ => ⟨default, [], []⟩ := by
  have node : ∀ id, v.node id = default := by
    intro id
    unfold Volume.node
    rw [h.nodes]
    rfl
  refine ⟨sound, ⟨List.nodup_nil, nofun, since, fun _ id usable _ => (h.free_iff reach id).2 usable⟩,
    nofun, ⟨fun s id e => ?_, fun id opens => ?_, nofun, ⟨fun id => ?_, fun id => ?_⟩⟩, fun sb e => ?_,
    fun _ => nofun, fun _ => rfl⟩
  · rw [h.table] at e
    cases e
  · rw [node] at opens
    exact absurd opens (Nat.lt_irrefl 0)
  · rw [node]
    rfl
  · rw [node]
    exact iff_of_false Bool.false_ne_true List.not_mem_nil
  · rw [h.superblock] at e
    cases e
    show v.space.allocator.bound ≤ _
    rw [h.allocator]
    exact Nat.le_refl _

/-- What setting up a volume ends with. -/
theorem format_cases (log : Log) (capacity : Nat) (time : Int64)
    (works : Promise.works → disk.Working Promise.sectors)
    (room : total.toNat ≤ Promise.sectors) (words : Promise.sectors ≤ wordRange32)
    (some : 1 + bitmapSectors total.toNat < total.toNat) :
    match format disk log total capacity time with
    | .ok v => v.Fresh total time ∧ disk.failures ≤ v.space.stock.failures ∧
      Storage.SetUp total time (fun s => disk.sector s.toNat) v.space.storage.logical
    | .error _ => (∃ violation, Cache.create capacity = .error violation) ∨ ¬ Promise.works := by
  unfold format
  simp only
  rw [if_neg (by omega)]
  unfold start
  cases e : Cache.create capacity with
  | error violation => exact .inl ⟨violation, rfl⟩
  | ok cache =>
    obtain ⟨good, logical⟩ : Storage.Good Promise.works Promise.sectors [] ⟨disk, cache, log⟩ ∧ _ :=
      Storage.good_of_create e works
    have enough : 1 + bitmapSectors total.toNat ≤ Promise.sectors := by omega
    have init := Storage.meets_initialise good words time enough
    simp only
    cases e' : initialise total time ⟨disk, cache, log⟩ with
    | ok r st =>
      obtain ⟨rfl, L, setUp, becomes⟩ := init.ok e'
      rw [logical, ← becomes.logical] at setUp
      exact ⟨⟨becomes.good, rfl, rfl, rfl, rfl, _, setUp⟩, becomes.failures, setUp⟩
    | error cause st =>
      obtain ⟨c, -, no⟩ := init.ends.error e'
      exact .inr no

/-! ## Volumes as a whole -/

variable {floor : Nat} {c : Client} {trees : SectorId → Tree}

theorem meets_flush (h : v.Inv floor c trees) :
    Meets flush v
      (fun _ v' => v.Leads floor c Stock.nowhere v' c ∧ v'.space.storage.Flushed)
      (fun e v' => v.Breaks floor c Stock.nowhere e v' c) := by
  have flushing := Storage.meets_flushAll_flushed h.space.storage
  have rests := Space.meets_onStorage_rests (d := fun _ => True) h.space
    ((Storage.meets_flushAll h.space.storage).mono (fun _ _ h₁ => ⟨h₁, trivial⟩) fun _ _ h => h)
  exact h.meets_rests ((rests.and (Space.meets_lift flushing)).mono
    (fun _ sp h₁ => ⟨h₁.2.1.2, h₁.1.2⟩) fun _ _ h₁ => h₁.1)

/-- Noting an event leaves on the disk what is there. -/
theorem meets_note_flushed (h : v.space.Sound) (flushed : v.space.storage.Flushed) (e : Event)
    {f : Fault → Volume → Prop} :
    Meets (note e) v
      (fun _ v' => (v.space.Rests v'.space ∧ v' = { v with space := v'.space }) ∧
        v'.space.storage.Flushed) f :=
  (meets_note_storage h e (f := fun _ _ => False)).mono
    (fun _ _ h₁ => ⟨h₁.1, flushed.congr h₁.2.1 h₁.2.2⟩) fun _ _ no => no.elim

theorem meets_close (h : v.Inv floor c trees) :
    Meets close v
      (fun _ v' => v.Leads floor c Stock.nowhere v' c ∧ v'.space.storage.Flushed)
      (fun e v' => v.Breaks floor c Stock.nowhere e v' c) := by
  unfold close
  have flushing : ∀ {sp₁ : Space}, v.space.Rests sp₁ →
      Meets (do
        let count ← flush
        note (.volumeClosed count)) { v with space := sp₁ }
        (fun _ v' => v.Leads floor c Stock.nowhere v' c ∧ v'.space.storage.Flushed)
        (fun e v' => v.Breaks floor c Stock.nowhere e v' c) := by
    intro sp₁ rests₁
    refine (meets_flush (h.rests rests₁)).bind (fun _ v₂ h₂ => ?_) fun e v₂ h₂ => ?_
    · have leads₂ := h.rests_leads rests₁ h₂.1
      obtain ⟨_, inv₂⟩ := h₂.1.inv
      refine (meets_note_flushed inv₂.space h₂.2 _ (f := fun _ _ => False)).mono
        (fun _ v₃ h₃ => ⟨?_, h₃.2⟩) fun _ _ no => no.elim
      rw [h₃.1.2]
      exact leads₂.rests h₃.1.1
    · exact ⟨h.rests_leads rests₁ h₂.1, h₂.2.1, Nat.lt_of_le_of_lt rests₁.failures h₂.2.2⟩
  refine meets_get ?_
  simp only
  by_cases left : (!(v.table.map Prod.fst).isEmpty) = true
  · rw [if_pos left]
    refine (meets_note h.space _ (f := fun _ _ => False)).bind (fun _ v₁ h₁ => ?_)
      fun _ _ no => no.elim
    rw [h₁.2]
    exact flushing h₁.1
  · rw [if_neg left]
    exact flushing h.space.rests

/-- The free sectors are counted. -/
theorem meets_freeCount (h : v.Inv floor c trees) :
    Meets freeCount v
      (fun k v' => v.Leads floor c Stock.nowhere v' c ∧
        ∀ m, v.space.allocator = .bitmap m → k = m.clearBits v.space.storage.logical)
      (fun e v' => v.Breaks floor c Stock.nowhere e v' c) := by
  unfold freeCount
  have counting := h.meets_rests ((Space.meets_freeCount h.space).mono (fun _ _ h₁ => h₁.symm)
    fun _ _ h₁ => h₁)
  refine counting.mono (fun k v₁ h₁ => ⟨h₁.1, fun m bitmap => ?_⟩) fun _ _ h₁ => h₁
  rw [h₁.2, bitmap]
  rfl

end Volume

end SectorVolume
