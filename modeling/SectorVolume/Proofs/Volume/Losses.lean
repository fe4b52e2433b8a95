import SectorVolume.Proofs.Mapping.Agreement
import SectorVolume.Proofs.Mapping.Smooth
import SectorVolume.Proofs.Volume.Runs

/-!
# What a growth loses

While a record is given more sectors a transfer may fail. Whatever sectors were taken by then are
listed by the record or are free again, with two exceptions. Sectors are lost that were to be listed
by an index block, if that block cannot be saved in the end, and sectors that had been taken when
too few were left, if they cannot be given back.
-/

namespace SectorVolume

open SectorVolume.Action

namespace Mapping

variable {m m' : Mapping}

/-- The sectors that the record and its index blocks list. -/
def sectors (m : Mapping) : List SectorId := m.listing.data ++ m.listing.index

/-- Every sector that was free before is listed or free. -/
def Accounts (m m' : Mapping) : Prop :=
  ∀ id, m.space.stock.free id → id ∈ m'.sectors ∨ m'.space.stock.free id

variable [Promise]

/-- The sectors listed before are listed still, and what is listed is not free. Listing them fails
only with a transfer. -/
structure Keeps (m m' : Mapping) : Prop where
  listed : Meets mapped m' (fun listing _ => listing = m'.listing)
    fun c m'' => Stock.Broke m'.space.stock m''.space.stock c
  sectors : m.sectors ⊆ m'.sectors
  taken : ∀ id ∈ m'.sectors, m'.space.stock.Held id

theorem Sound.sectors_eq {t : Tree} (h : m.Sound t) : m.sectors = t.sectors := by
  unfold sectors
  rw [h.listing_eq]
  rfl

theorem Sound.meets_mapped {t : Tree} (h : m.Sound t) :
    Meets mapped m (fun listing _ => listing = m.listing)
      fun c m' => Stock.Broke m.space.stock m'.space.stock c := by
  have reading := meets_onSpace (Space.meets_mapped h.space h.tree)
  rw [h.record] at reading
  rw [h.listing_eq]
  exact meets_get (reading.mono (fun _ _ h' => h'.1.1) fun _ _ h' => h'.1.2)

theorem Grows.keeps {t t' : Tree} (h : m.Sound t) (grows : m.Grows t m' t') : m.Keeps m' := by
  refine ⟨grows.sound.meets_mapped, ?_, ?_⟩
  · rw [h.sectors_eq, grows.sound.sectors_eq]
    exact grows.grows.subset
  · rw [grows.sound.sectors_eq]
    exact grows.sound.tree.held

theorem Grows.accounts {t t' : Tree} (grows : m.Grows t m' t')
    (clean : m'.space.stock.failures = m.space.stock.failures) : m.Accounts m' := by
  unfold Accounts
  rw [grows.sound.sectors_eq]
  exact grows.grows.unleaked clean

end Mapping

/-! ## A bitmap in the only slot -/

namespace Storage

/-- A storage with one slot, which holds the bytes `b` of sector 1. The disk does not have them. -/
def oneSlot (disk : Disk) (index : Std.HashMap SectorId Nat) (log : Log) (b : Sector) : Storage :=
  ⟨disk, ⟨#[⟨some ⟨1, .dirty, b⟩, 0⟩], ⟨[], [0]⟩, index⟩, log⟩

section OneSlot

variable {disk disk' : Disk} {index : Std.HashMap SectorId Nat} {log log' : Log} {b : Sector}
  (found : index[(1 : SectorId)]? = some 0)

include found

theorem lookup_oneSlot : (oneSlot disk index log b).cache.lookup (FreeMap.ofTotal 16).start = some 0 :=
  found

theorem takeOne_oneSlot {k : Fin 4096} (first : b.firstClear = some k) :
    (FreeMap.ofTotal 16).takeOne (oneSlot disk index log b) =
      .ok (some (UInt32.ofNat k)) (oneSlot disk index log (b.setBit k)) :=
  FreeMap.takeOne_of_lookup rfl (lookup_oneSlot found) first

theorem release_oneSlot {id : SectorId} (lt : id.toNat < 4096)
    (taken : b.bit ⟨id.toNat, lt⟩ = true) :
    (FreeMap.ofTotal 16).release id 1 (oneSlot disk index log b) =
      .ok () (oneSlot disk index log (b.clearBit ⟨id.toNat, lt⟩)) := by
  have inside : ¬ id.toNat + 1 % wordRange32 ≥ wordRange32 := by
    have range : wordRange32 = 4294967296 := rfl
    have one : 1 % wordRange32 = 1 := rfl
    omega
  have give : (FreeMap.ofTotal 16).giveBack (UInt32.ofNat id.toNat) (oneSlot disk index log b) =
      .ok () (oneSlot disk index log (b.clearBit ⟨id.toNat, lt⟩)) := by
    rw [UInt32.ofNat_toNat]
    exact FreeMap.giveBack_of_lookup rfl (lookup_oneSlot found) lt taken
  unfold FreeMap.release
  rw [if_neg inside]
  exact run_bind give rfl

variable (first : b.firstClear = some 2) (second : (b.setBit 2).firstClear = some 3)

include first second

theorem allocate_oneSlot : (FreeMap.ofTotal 16).allocate 2 (oneSlot disk index log b) =
    .ok [2, 3] (oneSlot disk index log ((b.setBit 2).setBit 3)) :=
  run_bind (attempt_of_ok (takeOne_oneSlot found first))
    (run_bind (attempt_of_ok (takeOne_oneSlot found second)) rfl)

/-- If the first of two sectors cannot be filled with zeros, both are given back. -/
theorem allocateZeroed_oneSlot {c : Fault}
    (refused : writeZeros 2 (oneSlot disk index log ((b.setBit 2).setBit 3)) =
      .error (.fault c) (oneSlot disk' index log' ((b.setBit 2).setBit 3))) :
    ∃ b', Growth.allocateZeroed 2 ⟨oneSlot disk index log b, .bitmap (FreeMap.ofTotal 16)⟩ =
      .error (.fault c) ⟨oneSlot disk' index log' b', .bitmap (FreeMap.ofTotal 16)⟩ := by
  have allocated : Space.allocate 2 ⟨oneSlot disk index log b, .bitmap (FreeMap.ofTotal 16)⟩ =
      .ok [2, 3] ⟨oneSlot disk index log ((b.setBit 2).setBit 3), .bitmap (FreeMap.ofTotal 16)⟩ :=
    Space.onStorage_of_ok (allocate_oneSlot found first second) _
  have zeroed : Growth.zeroAll [2, 3]
      ⟨oneSlot disk index log ((b.setBit 2).setBit 3), .bitmap (FreeMap.ofTotal 16)⟩ =
        .error (.fault c)
          ⟨oneSlot disk' index log' ((b.setBit 2).setBit 3), .bitmap (FreeMap.ofTotal 16)⟩ :=
    run_bind_error (Space.onStorage_of_error refused _)
  have taken : ((b.setBit 2).setBit 3).bit 2 = true := by simp [Sector.bit_setBit]
  have taken' : (((b.setBit 2).setBit 3).clearBit 2).bit 3 = true := by
    simp [Sector.bit_setBit, Sector.bit_clearBit]
  have give : (FreeMap.ofTotal 16).release 2 1 (oneSlot disk' index log' ((b.setBit 2).setBit 3)) =
      .ok () (oneSlot disk' index log' (((b.setBit 2).setBit 3).clearBit 2)) :=
    release_oneSlot found (by decide) taken
  have give' : (FreeMap.ofTotal 16).release 3 1
      (oneSlot disk' index log' (((b.setBit 2).setBit 3).clearBit 2)) =
        .ok () (oneSlot disk' index log' ((((b.setBit 2).setBit 3).clearBit 2).clearBit 3)) :=
    release_oneSlot found (by decide) taken'
  have released : Space.releaseAll [2, 3]
      ⟨oneSlot disk' index log' ((b.setBit 2).setBit 3), .bitmap (FreeMap.ofTotal 16)⟩ =
        .ok () ⟨oneSlot disk' index log' ((((b.setBit 2).setBit 3).clearBit 2).clearBit 3),
          .bitmap (FreeMap.ofTotal 16)⟩ :=
    run_bind (Space.onStorage_of_ok give _) (run_bind (Space.onStorage_of_ok give' _) rfl)
  exact ⟨_, run_bind allocated (run_bind (attempt_of_fault zeroed) (run_bind released rfl))⟩

end OneSlot

/-- A bitmap of 16 sectors was set up in a cache of one slot. Its sector has to be written back
before another one gets the slot, and the disk refuses that. -/
theorem exists_oneSlot : ∃ cache disk index log b, Cache.create 1 = .ok cache ∧
    (FreeMap.ofTotal 16).format 2 ⟨(Disk.memory 16).failingWrite 0, cache, {}⟩ =
      .ok () (oneSlot disk index log b) ∧
    index[(1 : SectorId)]? = some 0 ∧
    (∀ k : Fin 4096, b.bit k = (FreeMap.ofTotal 16).fresh 2 k) ∧ disk.failures = 0 ∧
    ∀ b', ∃ disk' log', writeZeros 2 (oneSlot disk index log b') =
      .error (.fault (.device .injectedWrite)) (oneSlot disk' index log' b') ∧
        disk'.failures = 1 := by
  obtain ⟨cache, hc, explicit⟩ : ∃ cache, Cache.create 1 = .ok cache ∧
      cache = ⟨#[{}], Queue.ofList [0], {}⟩ := ⟨_, rfl, rfl⟩
  have absent : ∀ s, cache.lookup s = none := (slot_of_create hc).2.2.2
  have found : (cache.index.insert 1 0)[(1 : SectorId)]? = some 0 :=
    Std.HashMap.getElem?_insert_self
  have missing : (cache.index.insert 1 0)[(2 : SectorId)]? = none :=
    absent_insert (by decide) (absent 2)
  obtain ⟨disk, index, log, b, claimed, found, missing, hd⟩ : ∃ disk index log b,
      claim 1 .disk ⟨(Disk.memory 16).failingWrite 0, cache, {}⟩ =
        .ok 0 ⟨disk, ⟨#[⟨some ⟨1, .clean, b⟩, 0⟩], ⟨[], [0]⟩, index⟩, log⟩ ∧
      index[(1 : SectorId)]? = some 0 ∧ index[(2 : SectorId)]? = none ∧
      disk = { (Disk.memory 16).failingWrite 0 with
        trace := #[(⟨.read, 1⟩, true)], reads := 1 } := by
    subst explicit
    exact ⟨_, _, _, _, rfl, found, missing, rfl⟩
  have formatted := FreeMap.format_of_absent (m := FreeMap.ofTotal 16) rfl (absent 1) claimed 2
  generalize fresh : Sector.ofBits ((FreeMap.ofTotal 16).fresh 2) = b at formatted
  refine ⟨cache, disk, index, _, b, hc, formatted, found, fun k => ?_, by rw [hd]; rfl,
    fun b' => ?_⟩
  · rw [← fresh]
    exact Sector.bit_ofBits _ k
  · rw [hd]
    exact ⟨_, _, (writeZeros_of_absent (by exact missing)).trans rfl, rfl⟩

end Storage

/-! ## What a growth takes -/

namespace Mapping

variable {m m' : Mapping} [Promise]

/-- Making a byte writable never gives up a sector that was listed, however it ends. If it succeeds,
what it took is listed. If it fails with at most one failed transfer, what it took is listed or free
again, unless an index block could not be saved, or the answer is that there are too few sectors and
still a transfer failed. -/
theorem Grown.growth_accounted (h : m.Grown) (offset : Nat) :
    Ends (translate offset true) m (fun _ m' => m.Keeps m' ∧ m.Accounts m') fun e m' =>
      ∃ c, e = .fault c ∧ m.Keeps m' ∧
        (m'.space.stock.failures ≤ m.space.stock.failures + 1 →
          m.Accounts m' ∨ Growth.Unsaved offset m ∨
            (∃ count, c = .exhausted count) ∧ m.space.stock.failures < m'.space.stock.failures) := by
  obtain ⟨t, sound⟩ := h.sound
  unfold translate
  rw [if_pos rfl]
  refine ((meets_ensure sound offset).ends.and (Growth.smooth_ensure offset m)).mono ?_ ?_
  · rintro x m' ⟨⟨t', grows, -⟩, clean⟩
    exact ⟨grows.keeps sound, grows.accounts (clean trivial)⟩
  · rintro _ m' ⟨⟨c, rfl, t', grows, halts⟩, -⟩
    refine ⟨c, rfl, grows.keeps sound, fun one => ?_⟩
    have le := grows.failures
    by_cases clean : m'.space.stock.failures = m.space.stock.failures
    · exact .inl (grows.accounts clean)
    · rcases halts.retains one with exhausted | unsaved | kept
      · exact .inr (.inr ⟨exhausted, by omega⟩)
      · exact .inr (.inl unsaved)
      · refine .inl ?_
        unfold Accounts
        rw [grows.sound.sectors_eq]
        exact kept

omit [Promise] in
/-- Two sectors are taken from the bitmap, whose own sector cannot be written back to make room for
them. Both are free again afterwards. -/
theorem growth_accounted_of_refused : ∃ (_ : Promise) (m m' : Mapping), m.Grown ∧
    m.space.allocator = .bitmap (FreeMap.ofTotal 16) ∧
    translate 512 true m = .error (.fault (.device .injectedWrite)) m' ∧
    m'.space.stock.failures = m.space.stock.failures + 1 ∧ m.Keeps m' ∧ m.Accounts m' := by
  let promise : Promise := ⟨False, 16⟩
  obtain ⟨cache, disk, index, log, b, hc, formatted, found, bits, calm, refuses⟩ :=
    Storage.exists_oneSlot
  obtain ⟨disk', log', refused, failed⟩ := refuses ((b.setBit 2).setBit 3)
  have first : b.firstClear = some 2 := Sector.firstClear_of_bit (by rw [bits]; rfl) fun c lt => by
    have lt : c.val < 2 := lt
    rw [bits]
    simp [FreeMap.fresh, lt]
  have second : (b.setBit 2).firstClear = some 3 :=
    Sector.firstClear_of_bit (by rw [Sector.bit_setBit, bits]; rfl) fun c lt => by
      have lt : c.val < 3 := lt
      rw [Sector.bit_setBit, bits]
      by_cases e : (2 : Fin 4096) = c
      · rw [decide_eq_true e, Bool.or_true]
      · have ne : c.val ≠ 2 := fun h => e (Fin.ext h.symm)
        simp [FreeMap.fresh, (by omega : c.val < 2)]
  obtain ⟨b', run⟩ := Storage.allocateZeroed_oneSlot found first second refused
  let sp : Space := ⟨.oneSlot disk index log b, .bitmap (FreeMap.ofTotal 16)⟩
  have placed : (FreeMap.ofTotal 16).Placed 16 :=
    FreeMap.placed_ofTotal (by decide) (by decide) (by decide)
  obtain ⟨good, -, turns⟩ := (FreeMap.meets_format placed.stands
    (Storage.good_of_create hc False.elim).1 2).ends.ok formatted
  have sound : sp.Sound := by
    refine ⟨good, ⟨placed, by decide, Nat.le_refl 16⟩, fun id free => ?_⟩
    obtain ⟨lt, clear⟩ := free
    rw [turns.bits _ lt] at clear
    exact (Space.usable_iff_of_bitmap rfl (Nat.le_refl 16)).2 (FreeMap.fresh_eq_false_iff.1 clear)
  let m : Mapping := ⟨sp, .make 0 false⟩
  let m' : Mapping :=
    ⟨⟨.oneSlot disk' index log' b', .bitmap (FreeMap.ofTotal 16)⟩, .make 0 false⟩
  have grown : m.Grown := .new sound 0 false
  have denied : translate 512 true m = .error (.fault (.device .injectedWrite)) m' :=
    run_bind_error (run_bind (a := m) rfl
      (run_bind_error (onSpace_of_error (run_bind_error run) _)))
  have one : m'.space.stock.failures = m.space.stock.failures + 1 := by
    show disk'.failures = disk.failures + 1
    rw [failed, calm]
  obtain ⟨c, same, keeps, accounts⟩ := (grown.growth_accounted 512).error denied
  refine ⟨promise, m, m', grown, rfl, denied, one, keeps, ?_⟩
  -- nothing was to be saved in an index block, and there were sectors enough
  rcases accounts (Nat.le_of_eq one) with kept | unsaved | ⟨⟨count, rfl⟩, -⟩
  · exact kept
  · exact unsaved.elim
  · cases same

/-- What was taken for an index block that cannot be saved in the end is lost. -/
theorem Grown.loses_unsaved (h : m.Grown) (there : m.record.indirect ≠ 0) {offset : Nat}
    {i : Fin 128} (place : locate offset = some (.indirect i)) (unsaved : Growth.Unsaved offset m) :
    Ends (translate offset true) m (fun _ _ => False) fun _ m' => ¬ m.Accounts m' := by
  obtain ⟨t, sound⟩ := h.sound
  unfold Growth.Unsaved at unsaved
  rw [place] at unsaved
  simp only [Growth.IndirectUnsaved, if_neg there] at unsaved
  have first : t.record.indirect ≠ 0 := by rwa [sound.record]
  have content := (sound.tree.maps.first first).2
  have held := sound.tree.held _ (Tree.mem_sectors_blocks (Record.Maps.mem_blocks_first first))
  have nonzero := sound.tree.maps.nonzero_chunk 12
  rw [sound.record] at content held
  have entry := (Space.meets_ensureEntry sound.space held content nonzero i).ends.and
    (Space.ends_ensureEntry_unsaved sound.space held content nonzero i unsaved)
  unfold translate Growth.ensure
  rw [if_pos rfl, place]
  refine Ends.bind (d := fun _ _ => False) ?_ (fun _ _ no => no.elim) fun _ _ h => h
  unfold Growth.ensureIndirect
  refine ends_get_bind ?_
  rw [if_neg there]
  refine ends_get_bind ((ends_onSpace entry).mono (fun _ _ h => h.1.2) ?_)
  rintro _ m' ⟨⟨⟨c, rfl, refuses⟩, id, free, taken⟩, record⟩ accounts
  have after := grows_of_space (refuses.grows sound.tree) (sound.record.trans record.symm)
  rcases accounts id free with listed | free'
  · rw [after.sound.sectors_eq] at listed
    exact (sound.tree.held id listed).2 free
  · exact taken free'

end Mapping

end SectorVolume
