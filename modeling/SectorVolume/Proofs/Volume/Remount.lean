import SectorVolume.Proofs.Volume.Accounting
import SectorVolume.Proofs.Volume.Admission

/-!
# Opening a volume again

Once everything was written back the disk has all that the volume has, apart from the nodes. A node
of an inode is no loss: as long as no transfer failed, the record of every live inode stands in its
sector with the length up to date. So the volume that is opened on the disk keeps the invariant for
the same client without handles, and has the same files.
-/

namespace SectorVolume

open SectorVolume.Action

namespace Superblock

variable (total : UInt32) (time : Int64)

theorem isValid_ofTotal : (ofTotal total time).isValid = true :=
  beq_self_eq_true superblockMagic

theorem toNat_bitmapSectors_ofTotal :
    (ofTotal total time).bitmapSectors.toNat = SectorVolume.bitmapSectors total.toNat := by
  have room : 1 + SectorVolume.bitmapSectors total.toNat ≤ 2 ^ 32 := reserved_le total
  exact UInt32.toNat_ofNat_of_lt' (by show _ < 2 ^ 32; omega)

theorem map_ofTotal : (ofTotal total time).map = FreeMap.ofTotal total.toNat := by
  unfold map
  rw [toNat_bitmapSectors_ofTotal]
  rfl

theorem covered_ofTotal : (ofTotal total time).Covered := by
  unfold Covered
  rw [toNat_bitmapSectors_ofTotal]
  exact le_bitmapSectors total.toNat

end Superblock

/-- What a superblock says is found in it. -/
theorem Storage.meets_recognise {w : Prop} {n : Nat} {st : Storage} (h : st.Good w n [])
    (some : 0 < n) {total : UInt32} {time : Int64}
    (label : Superblock.ofSector (st.logical 0) = Superblock.ofTotal total time) :
    Meets Volume.recognise st
      (fun r st' => r = (Superblock.ofTotal total time, FreeMap.ofTotal total.toNat) ∧
        Same w n [] st st')
      (Breaks w n st) := by
  refine Meets.of_ends (ends_recognise h some label |>.mono (fun r st' h' => ?_) fun _ _ h' => h')
    fun e st' h' => ?_
  · rw [h'.2.1, Superblock.map_ofTotal]
    exact ⟨rfl, h'.2.2⟩
  · rcases h' with declines | broke
    · cases declines with
      | foreign no => exact absurd (Superblock.isValid_ofTotal total time) (by rw [no]; decide)
      | uncovered _ no => exact absurd (Superblock.covered_ofTotal total time) no
    · exact broke

namespace Volume

variable [Promise] {disk : Disk} {total : UInt32} {capacity : Nat} {time : Int64}
  {v v₀ v' : Volume} {c : Client} {floor : Nat} {trees : SectorId → Tree}

/-- The volume was just opened on the disk. -/
structure Mounted (disk : Disk) (total : UInt32) (time : Int64) (v : Volume) : Prop where
  storage : v.space.storage.Good Promise.works Promise.sectors []
  logical : v.space.storage.logical = fun s => disk.sector s.toNat
  failures : disk.failures ≤ v.space.storage.disk.failures
  allocator : v.space.allocator = .bitmap (FreeMap.ofTotal total.toNat)
  superblock : v.superblock = some (Superblock.ofTotal total time)
  nodes : v.nodes = #[]
  table : v.table = []

theorem open_cases (log : Log) {cache : Cache} (e : Cache.create capacity = .ok cache)
    (works : Promise.works → disk.Working Promise.sectors) (some : 0 < Promise.sectors)
    (label : Superblock.ofSector (disk.sector 0) = Superblock.ofTotal total time) :
    match «open» disk log capacity with
    | .ok v => v.Mounted disk total time
    | .error aborted => disk.Fails Promise.works aborted.cause aborted.disk := by
  obtain ⟨good, logical⟩ : Storage.Good Promise.works Promise.sectors [] ⟨disk, cache, log⟩ ∧ _ :=
    Storage.good_of_create e works
  have there : Superblock.ofSector ((⟨disk, cache, log⟩ : Storage).logical 0) =
      Superblock.ofTotal total time := by rw [logical]; exact label
  have reading := Storage.meets_recognise good some there
  unfold «open» start
  rw [e]
  simp only
  cases e' : recognise ⟨disk, cache, log⟩ with
  | ok r st =>
    obtain ⟨rfl, same⟩ := reading.ok e'
    exact ⟨same.good, same.logical.trans logical, same.failures, rfl, rfl, rfl, rfl⟩
  | error cause st =>
    obtain ⟨f, rfl, device, broken, failed, -⟩ := reading.ends.error e'
    obtain ⟨cause, rfl⟩ := device
    exact ⟨⟨cause, rfl⟩, failed, broken⟩

/-- What was written back is found again. -/
theorem Mounted.logical_eq {st : Storage} (mounted : v.Mounted st.disk total time)
    (flushed : st.Flushed) : v.space.storage.logical = st.logical := by
  rw [mounted.logical]
  exact funext flushed

/-- What the disk had and the volume has now is the same. -/
theorem Mounted.stock_eq (mounted : v'.Mounted v.space.storage.disk total time)
    (flushed : v.space.storage.Flushed)
    (allocator : v.space.allocator = .bitmap (FreeMap.ofTotal total.toNat)) :
    v'.space.stock = { v.space.stock with failures := v'.space.stock.failures } := by
  unfold Space.stock
  simp only [mounted.logical_eq flushed, mounted.allocator, allocator]

theorem Mounted.node_eq (mounted : v.Mounted disk total time) (id : NodeId) :
    v.node id = default := by
  unfold node
  rw [mounted.nodes]
  rfl

theorem Mounted.lookup_eq (mounted : v.Mounted disk total time) (s : SectorId) :
    v.table.lookup s = none := by
  rw [mounted.table]
  rfl

/-- The client finds all that it had, except for the handles. -/
theorem Mounted.inv (mounted : v'.Mounted v.space.storage.disk total time)
    (h : v.Inv floor c trees) (clean : v.space.stock.failures = floor)
    (flushed : v.space.storage.Flushed)
    (allocator : v.space.allocator = .bitmap (FreeMap.ofTotal total.toNat)) :
    v'.Inv floor { c with handles := .empty }
        (fun s => (trees s).withLength (UInt32.ofNat (v.lengthOf s))) ∧
      ∀ s ∈ c.live, v'.lengthOf s = v.lengthOf s ∧ v'.kindOf s = v.kindOf s ∧ Matches v v' s ∧
        v'.recordOf s = { v.recordOf s with length := UInt32.ofNat (v.lengthOf s) } := by
  have stock := mounted.stock_eq flushed allocator
  have content : v'.space.stock.content = v.space.stock.content := by rw [stock]
  have held : ∀ {id}, v.space.stock.Held id → v'.space.stock.Held id := by
    intro id hid
    rw [stock]
    exact hid
  have files := fun s (hs : s ∈ c.live) => (h.files s hs).closed (mounted.lookup_eq s)
    ((congrFun content s).trans (h.current clean s hs)) (fun id _ => congrFun content id)
    fun id hid => held ((h.files s hs).tree.held id hid)
  have since : floor ≤ v'.space.stock.failures :=
    Nat.le_trans (Nat.le_of_eq clean.symm) mounted.failures
  have undoomed := h.undoomed clean
  refine ⟨⟨⟨mounted.storage, ?_, fun id free => ?_⟩, ⟨h.owns.nodup, fun id hid => ?_, since,
    fun _ id usable notin => ?_⟩, fun s hs => (files s hs).1, ⟨fun s id e => ?_, fun id opens => ?_,
    fun s hs => absurd (undoomed ▸ hs) List.not_mem_nil, ⟨fun id => ?_, fun id => ?_⟩⟩, fun sb e => ?_,
    fun _ s _ => coherent_of_none (mounted.lookup_eq s), fun _ => undoomed⟩, fun s hs => ?_⟩
  · rw [mounted.allocator, ← allocator]
    exact h.space.allocator
  · rw [stock] at free ⊢
    exact h.space.usable id free
  · exact held (h.owns.held id hid)
  · rw [stock] at usable ⊢
    exact h.owns.unleaked clean id usable notin
  · rw [mounted.lookup_eq] at e
    cases e
  · rw [mounted.node_eq] at opens
    exact absurd opens (Nat.lt_irrefl 0)
  · rw [mounted.node_eq]
    rfl
  · rw [mounted.node_eq]
    exact iff_of_false Bool.false_ne_true List.not_mem_nil
  · rw [mounted.superblock] at e
    cases e
    show v'.space.allocator.bound ≤ _
    rw [mounted.allocator]
    exact Nat.le_refl _
  · obtain ⟨file, length, kind, same⟩ := files s hs
    refine ⟨length, kind, same, file.record.symm.trans ?_⟩
    rw [← (h.files s hs).record]
    rfl

/-- A failure of the disk, told without the invariant. -/
theorem Breaks.fails {X : SectorId → Prop} {e : Fault} {c' : Client}
    (h : v.Breaks floor c X e v' c') :
    v.space.storage.disk.Fails Promise.works (.fault e) v'.space.storage.disk := by
  obtain ⟨leads, ⟨cause, rfl⟩, failed⟩ := h
  obtain ⟨_, inv⟩ := leads.inv
  exact ⟨⟨cause, rfl⟩, failed, inv.not_broke ⟨⟨cause, rfl⟩, failed⟩⟩

/-- A file is found again as it was. -/
theorem Mounted.ends_openInode (mounted : v'.Mounted v.space.storage.disk total time)
    (h : v.Inv floor c trees) (clean : v.space.stock.failures = floor)
    (flushed : v.space.storage.Flushed)
    (allocator : v.space.allocator = .bitmap (FreeMap.ofTotal total.toNat)) {s : SectorId}
    (hs : s ∈ c.live) :
    Ends (openInode s) v'
      (fun id w => (w.node id).length = v.lengthOf s ∧ (w.node id).isDirectory = v.kindOf s ∧
        (w.node id).record = { v.recordOf s with length := UInt32.ofNat (v.lengthOf s) } ∧
        ∀ offset len, Ends (readAt id offset len) w
          (fun bytes _ => bytes = (v.bytes s).extract offset (offset + len))
          fun e w' => w.space.storage.disk.Fails Promise.works e w'.space.storage.disk)
      fun e w => v'.space.storage.disk.Fails Promise.works e w.space.storage.disk := by
  obtain ⟨inv', files⟩ := mounted.inv h clean flushed allocator
  obtain ⟨length, kind, same, record⟩ := files s hs
  refine (meets_openInode inv' hs).ends.mono ?_ ?_
  · rintro id w ⟨leads, shows⟩
    obtain ⟨trees', inv⟩ := leads.inv
    refine ⟨shows.length.trans length, shows.kind.trans kind, shows.record.trans record,
      fun offset len => ?_⟩
    have opened := inv.opened (List.mem_cons_self (a := id))
    rw [shows.sector] at opened
    refine (meets_readAt inv opened offset len).ends.mono ?_ ?_
    · rintro _ w' ⟨-, rfl⟩
      rw [leads.bytes s hs fun no => no, same.bytes]
    · rintro _ w' ⟨e, rfl, breaks⟩
      exact breaks.fails
  · rintro _ w ⟨e, rfl, breaks⟩
    exact breaks.fails

/-- There are as many free sectors as there were. -/
theorem Mounted.ends_freeCount (mounted : v'.Mounted v.space.storage.disk total time)
    (h : v.Inv floor c trees) (clean : v.space.stock.failures = floor)
    (flushed : v.space.storage.Flushed)
    (allocator : v.space.allocator = .bitmap (FreeMap.ofTotal total.toNat)) :
    Ends freeCount v
      (fun count _ => Ends freeCount v' (fun count' _ => count' = count)
        fun e w => v'.space.storage.disk.Fails Promise.works e w.space.storage.disk)
      fun e w => v.space.storage.disk.Fails Promise.works e w.space.storage.disk := by
  obtain ⟨inv', -⟩ := mounted.inv h clean flushed allocator
  refine (meets_freeCount h).ends.mono ?_ ?_
  · rintro count _ ⟨-, before⟩
    refine (meets_freeCount inv').ends.mono ?_ ?_
    · rintro count' _ ⟨-, after⟩
      rw [after _ mounted.allocator, before _ allocator, mounted.logical_eq flushed]
    · rintro _ w ⟨e, rfl, breaks⟩
      exact breaks.fails
  · rintro _ w ⟨e, rfl, breaks⟩
    exact breaks.fails

/-- What follows on the setting up of a volume leaves its superblock in its sector. -/
theorem Fresh.label_of_follows (fresh : v₀.Fresh total time) (follows : v₀.Follows v) :
    Superblock.ofSector (v.space.storage.logical 0) = Superblock.ofTotal total time := by
  have outside : v.space.storage.logical 0 = v₀.space.storage.logical 0 := by
    refine follows.outside 0 (fun own => ?_) fun usable => usable.1 rfl
    unfold Space.stock at own
    simp only [fresh.allocator] at own
    exact FreeMap.not_holds_zero _ own
  rw [outside, fresh.label]

omit [Promise] in
/-- When everything was written back and no transfer has failed, opening the disk again yields the
same superblock, the same free sectors, which are as many as before, and all files, whatever size
the new cache has. -/
theorem Reachable.remounts {log : Log} (h : Reachable disk log total capacity time v c) {r : Request}
    (leaving : r = .flush ∨ r = .close) {a : r.Answer} (e : r.perform v = .ok a v')
    (clean : v'.space.storage.disk.failures = disk.failures) (log' : Log) {capacity' : Nat}
    (fits : Cache.Fits capacity') :
    match «open» v'.space.storage.disk log' capacity' with
    | .ok v₂ => v₂.superblock = v'.superblock ∧ v₂.space.allocator = v'.space.allocator ∧
      (∀ id, v₂.space.stock.free id ↔ v'.space.stock.free id) ∧
      Ends freeCount v'
        (fun count _ => Ends freeCount v₂ (fun count' _ => count' = count)
          fun e w => v₂.space.storage.disk.Fails (disk.Working total.toNat) e w.space.storage.disk)
        (fun e w => v'.space.storage.disk.Fails (disk.Working total.toNat) e w.space.storage.disk) ∧
      ∀ s ∈ c.live, Ends (openInode s) v₂
        (fun id w => (w.node id).length = v'.lengthOf s ∧ (w.node id).isDirectory = v'.kindOf s ∧
          (w.node id).record = { v'.recordOf s with length := UInt32.ofNat (v'.lengthOf s) } ∧
          ∀ offset len, Ends (readAt id offset len) w
            (fun bytes _ => bytes = (v'.bytes s).extract offset (offset + len))
            fun e w' => w.space.storage.disk.Fails (disk.Working total.toNat) e w'.space.storage.disk)
        fun e w => v₂.space.storage.disk.Fails (disk.Working total.toNat) e w.space.storage.disk
    | .error aborted =>
      v'.space.storage.disk.Fails (disk.Working total.toNat) aborted.cause aborted.disk := by
  let : Promise := promise disk total
  obtain ⟨cache, e'⟩ := Cache.fits_iff.1 fits
  have allowed : r.Allowed c := by rcases leaving with rfl | rfl <;> trivial
  obtain ⟨v₀, trees, fresh, follows₀, inv⟩ :=
    h.inv id (Nat.le_refl _) (Nat.le_of_lt total.toNat_lt)
  obtain ⟨leads, effect⟩ := (Request.ends_perform inv r allowed).ok e
  have client : r.answered c v' a = c := by rcases leaving with rfl | rfl <;> rfl
  have flushed : v'.space.storage.Flushed := by rcases leaving with rfl | rfl <;> exact effect
  rw [client] at leads
  obtain ⟨trees', inv'⟩ := leads.inv
  have follows := follows₀.trans leads.follows
  have room := h.room
  have allocator := follows.allocator_eq fresh.allocator inv'.space (Nat.le_of_lt room)
    (Nat.le_of_lt total.toNat_lt) (by omega)
  have label : Superblock.ofSector (v'.space.storage.disk.sector 0) =
      Superblock.ofTotal total time := (congrArg _ (flushed 0)).trans (fresh.label_of_follows follows)
  have cases := open_cases log' e' inv'.space.storage.working (by show 0 < total.toNat; omega) label
  cases opened : «open» v'.space.storage.disk log' capacity' with
  | error aborted =>
    rw [opened] at cases
    exact cases
  | ok v₂ =>
    rw [opened] at cases
    have mounted : v₂.Mounted v'.space.storage.disk total time := cases
    have stock := mounted.stock_eq flushed allocator
    refine ⟨?_, mounted.allocator.trans allocator.symm, fun id => by rw [stock],
      mounted.ends_freeCount inv' clean flushed allocator,
      fun s hs => mounted.ends_openInode inv' clean flushed allocator hs⟩
    rw [mounted.superblock, follows.superblock, fresh.superblock]

omit [Promise] in
/-- In a small memory everything is written back while a file is open. -/
theorem exists_written_back : ∃ v s id n v',
    Reachable (Disk.memory 16) {} 16 1 0 v ⟨[], [s], [], ⟨[id], [], []⟩⟩ ∧
      flush v = .ok n v' ∧ v'.space.storage.disk.failures = (Disk.memory 16).failures := by
  let : Promise := ⟨True, 16⟩
  have disk : (Disk.memory 16).Working 16 := ⟨nofun, by decide, rfl⟩
  obtain ⟨v, s, id, run, -⟩ := exists_open_file
  obtain ⟨v₀, trees, -, -, inv⟩ := run.inv (fun _ => disk) (by decide) (by decide)
  obtain ⟨n, v', e, leads, -⟩ := inv.answers trivial .flush trivial fun _ _ _ no => no
  obtain ⟨trees', inv'⟩ := leads.inv
  exact ⟨v, s, id, n, v', run, e, inv'.clean trivial⟩

omit [Promise] in
/-- A file in a small memory is found again by a volume with a larger cache. -/
theorem remounts_of_open_file : ∃ v s id n v',
    Reachable (Disk.memory 16) {} 16 1 0 v ⟨[], [s], [], ⟨[id], [], []⟩⟩ ∧
      flush v = .ok n v' ∧ ∃ v₂, «open» v'.space.storage.disk {} 3 = .ok v₂ ∧
        v₂.superblock = v'.superblock ∧
        Ends (openInode s) v₂ (fun id w => (w.node id).length = v'.lengthOf s) fun _ _ => False := by
  have disk : (Disk.memory 16).Working 16 := ⟨nofun, by decide, rfl⟩
  obtain ⟨v, s, id, n, v', run, e, clean⟩ := exists_written_back
  have again := run.remounts (r := .flush) (.inl rfl) e clean {} (by decide : Cache.Fits 3)
  refine ⟨v, s, id, n, v', run, e, ?_⟩
  cases opened : «open» v'.space.storage.disk {} 3 with
  | error aborted =>
    rw [opened] at again
    exact absurd disk again.2.2
  | ok v₂ =>
    rw [opened] at again
    obtain ⟨superblock, -, -, -, files⟩ := again
    refine ⟨v₂, rfl, superblock, ?_⟩
    exact (files s (List.mem_singleton_self s)).mono (fun _ _ h => h.1) fun _ _ h => h.2.2 disk

omit [Promise] in
/-- The same file is not found again by a volume whose slots are beyond all memory. -/
theorem not_remounted_with_too_many_slots : ∃ v s id n v',
    Reachable (Disk.memory 16) {} 16 1 0 v ⟨[], [s], [], ⟨[id], [], []⟩⟩ ∧
      flush v = .ok n v' ∧ v'.space.storage.disk.failures = (Disk.memory 16).failures ∧
      «open» v'.space.storage.disk {} 1152921504606846976 =
        .error ⟨.violation .tooManySlots, v'.space.storage.disk, {}⟩ := by
  obtain ⟨v, s, id, n, v', run, e, clean⟩ := exists_written_back
  refine ⟨v, s, id, n, v', run, e, clean, ?_⟩
  have create : Cache.create 1152921504606846976 = .error .tooManySlots := rfl
  unfold «open» start
  rw [create]

end Volume

end SectorVolume
