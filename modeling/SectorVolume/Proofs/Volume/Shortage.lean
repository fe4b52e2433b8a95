import SectorVolume.Proofs.Volume.Accounting
import SectorVolume.Proofs.Volume.Turns

/-!
# Writes that run out of space

What a file lacks are the sectors that it would have with more data sectors, less those that it has.
A write that no transfer fails comes to its end just if as many sectors are free, and then it takes
these and no others. It stops early in front of the first byte for which there is no sector to be
had, and then none is free at all, if it began no further than right behind the data sectors.
-/

namespace SectorVolume

open SectorVolume.Action

namespace Volume

variable {v v' : Volume} {s : SectorId} {id : NodeId} {c : Client} {total : UInt32}

/-- How a write of `data` at `offset` that came to `n` bytes did with the free sectors. -/
structure Fits (total : UInt32) (v : Volume) (s : SectorId) (data : Bytes) (offset n : Nat)
    (v' : Volume) : Prop where
  /-- It was complete just if there were as many as the file lacked. -/
  complete_iff : n = data.size ↔
    (v.mappedOf s).lacking (dataSectors (offset + data.size)) ≤ v.spare total
  /-- Then they were taken, and no others. -/
  taken : n = data.size →
    v'.spare total + (v.mappedOf s).lacking (dataSectors (offset + data.size)) = v.spare total
  /-- If there were fewer it was cut short. -/
  short : v.spare total < (v.mappedOf s).lacking (dataSectors (offset + data.size)) → n < data.size
  /-- And no sector is free after that, if it began no further than behind the last data sector. -/
  full : v.spare total < (v.mappedOf s).lacking (dataSectors (offset + data.size)) →
    offset ≤ 512 * (v.mappedOf s).data.length → v'.spare total = 0

/-- The first `n` bytes of `data` were written at `offset`, and the file does not reach past the
greatest length. -/
structure Bounded (v : Volume) (s : SectorId) (data : Bytes) (offset n : Nat) (v' : Volume) : Prop where
  le : n ≤ min data.size (maxFileSize - offset)
  bytes : v'.bytes s =
    if n = 0 then v.bytes s else (v.bytes s).overwritten offset (data.extract 0 n)
  size : (v'.bytes s).size ≤ maxFileSize
  data : (v'.mappedOf s).data.length * 512 ≤ maxFileSize

section

variable [Promise] {floor : Nat} {trees : SectorId → Tree}

/-- What else the client has besides the file at `s` stays as it is. -/
theorem Inv.length_holdings (h : v.Inv floor c trees) (hs : s ∈ c.live)
    (leads : v.Leads floor c (· = s) v' c) :
    (v'.holdings c).length + ((v.mappedOf s).data ++ (v.mappedOf s).index).length =
      (v.holdings c).length + ((v'.mappedOf s).data ++ (v'.mappedOf s).index).length := by
  have live : c.live.Nodup := (List.nodup_append.1 (List.nodup_append.1 h.owns.nodup).1).2.1
  have others : (c.live.erase s).flatMap (fun s => (v'.mappedOf s).data ++ (v'.mappedOf s).index) =
      (c.live.erase s).flatMap fun s => (v.mappedOf s).data ++ (v.mappedOf s).index := by
    refine Client.flatMap_congr_of_mem fun s' hs' => ?_
    rw [(leads.same s' (List.mem_of_mem_erase hs') (live.mem_erase_iff.1 hs').1).mapped]
  have perm := List.perm_cons_erase hs
  have before := (perm.flatMap_right fun s => (v.mappedOf s).data ++ (v.mappedOf s).index).length_eq
  have after := (perm.flatMap_right fun s => (v'.mappedOf s).data ++ (v'.mappedOf s).index).length_eq
  rw [List.flatMap_cons] at before after
  rw [others] at after
  unfold holdings
  simp only [List.length_append] at before after ⊢
  omega

/-- A file and its sectors end at the greatest length. -/
theorem Inv.bounded (h : v.Inv floor c trees) (hs : s ∈ c.live) :
    (v.bytes s).size ≤ maxFileSize ∧ (v.mappedOf s).data.length * 512 ≤ maxFileSize := by
  have file := h.files s hs
  have e : maxFileSize = 16524 * 512 := rfl
  have length := file.tree.data_length_le
  have room := file.room
  rw [size_bytes, file.mappedOf_eq]
  simp only
  omega

/-- A write that no transfer fails and that is not denied uses the free sectors that there are. -/
theorem Inv.fits (h : v.Inv floor c trees) (o : v.Opened c id s)
    (allocator : v.space.allocator = .bitmap (FreeMap.ofTotal total.toNat))
    (allocator' : v'.space.allocator = .bitmap (FreeMap.ofTotal total.toNat))
    (leads : v.Leads floor c (· = s) v' c) (clean : v'.space.stock.failures = floor) {data : Bytes}
    {offset n : Nat} {t : Tree} (some : 0 < data.size) (inside : offset + data.size ≤ maxFileSize)
    (allowed : (v.node id).denials = 0) (le : n ≤ data.size)
    (mapped : v'.mappedOf s = ⟨t.data, t.blocks⟩)
    (spends : v.Spends id (trees s) data offset n v' t) : v.Fits total s data offset n v' := by
  obtain ⟨trees', inv'⟩ := leads.inv
  have clean₀ := h.floor_eq leads.follows.stock clean
  have file := h.files s o.live
  have tree := file.tree
  have file' := inv'.files s o.live
  have tree' := file'.tree
  -- the tree of the file afterwards is `t`, as far as its sectors go
  obtain ⟨data', blocks'⟩ : (trees' s).data = t.data ∧ (trees' s).blocks = t.blocks := by
    have same := file'.mappedOf_eq.symm.trans mapped
    exact ⟨congrArg MappedSectors.data same, congrArg MappedSectors.index same⟩
  have sectors' : (trees' s).sectors.length = t.sectors.length := by
    unfold Tree.sectors
    rw [data', blocks']
  have spent : v'.spare total + (trees' s).sectors.length =
      v.spare total + (trees s).sectors.length := by
    have before := h.clearBits_add allocator clean₀
    have after := inv'.clearBits_add allocator' clean
    have holdings := h.length_holdings o.live leads
    rw [file.mappedOf_eq, file'.mappedOf_eq] at holdings
    unfold spare Tree.sectors
    simp only at holdings
    omega
  have goal : dataSectors (offset + data.size) = (offset + data.size + 511) / 512 := rfl
  have longer := spends.longer
  rw [← data'] at longer
  have complete : n = data.size →
      (trees' s).sectors.length = (trees s).sectors.length +
        MappedSectors.lacking ⟨(trees s).data, (trees s).blocks⟩ (dataSectors (offset + data.size)) := by
    rintro rfl
    obtain ⟨thriftyData, thriftyBlocks⟩ := spends.all rfl
    rw [← data'] at thriftyData
    rw [← blocks'] at thriftyBlocks
    have room := spends.room some
    rw [← data'] at room
    have more := spends.more
    exact Tree.Thrifty.length_sectors tree tree' ⟨thriftyData, thriftyBlocks⟩ (by omega) (by omega)
  have cut : n < data.size → v'.spare total < (offset + n) / 512 + 1 - (trees' s).data.length := by
    intro less
    rw [data']
    rcases spends.short allowed (by omega) with short | failed
    · exact spare_lt allocator' short
    · rw [clean, clean₀] at failed
      exact absurd failed (Nat.lt_irrefl _)
  have lacks : n < data.size → v.spare total < MappedSectors.lacking
      ⟨(trees s).data, (trees s).blocks⟩ (dataSectors (offset + data.size)) := by
    intro less
    have cut := cut less
    have missing : v'.spare total <
        dataSectors (offset + data.size) - (trees' s).data.length := by omega
    have short := tree'.length_sectors_lt longer missing
    omega
  have short : v.spare total < MappedSectors.lacking ⟨(trees s).data, (trees s).blocks⟩
      (dataSectors (offset + data.size)) → n < data.size := by
    intro less
    by_contra all
    have := complete (by omega)
    omega
  rw [← file.mappedOf_eq] at complete lacks short
  refine ⟨⟨fun all => ?_, fun enough => ?_⟩, fun all => ?_, short, fun less near => ?_⟩
  · have := complete all
    omega
  · by_contra less
    have := lacks (by omega)
    omega
  · have := complete all
    omega
  · -- the next byte is in the sector right behind the last one, or before
    have cut := cut (short less)
    have room := spends.room
    rw [← data'] at room
    rw [file.mappedOf_eq] at near
    replace near : offset ≤ 512 * (trees s).data.length := near
    by_cases none : n = 0
    · omega
    · have := room (by omega)
      omega

/-- Only the disk makes a write fail. -/
theorem Inv.meets_writing (h : v.Inv floor c trees) (o : v.Opened c id s)
    (allocator : ∀ {w : Volume}, v.Follows w → w.space.Sound →
      w.space.allocator = .bitmap (FreeMap.ofTotal total.toNat))
    (allowed : (v.node id).denials = 0) (data : Bytes) (some : 0 < data.size) (offset : Nat) :
    Meets (writeAt id data offset) v
      (fun n v' => v.Bounded s data offset n v' ∧ ∃ trees', v'.Inv floor c trees' ∧
        v'.space.allocator = .bitmap (FreeMap.ofTotal total.toNat) ∧
          (v'.space.stock.failures = floor → offset + data.size ≤ maxFileSize →
            v.Fits total s data offset n v'))
      fun e v' => (∃ n, v.Bounded s data offset n v') ∧ v.Breaks floor c (· = s) e v' c := by
  refine (meets_writeAt h o data offset).mono ?_ ?_
  · rintro n v' ⟨leads, ⟨le, bytes⟩, -, t, mapped, spends⟩
    obtain ⟨trees', inv'⟩ := leads.inv
    obtain ⟨size, sectors⟩ := inv'.bounded o.live
    have allocator' := allocator leads.follows inv'.space
    refine ⟨⟨le, bytes, size, sectors⟩, trees', inv', allocator', fun clean inside => ?_⟩
    exact h.fits o (allocator (.refl v) h.space) allocator' leads clean some inside allowed
      (by omega) mapped spends
  · rintro e v' ⟨⟨leads, broke⟩, ⟨n, le, bytes⟩, -⟩
    obtain ⟨trees', inv'⟩ := leads.inv
    obtain ⟨size, sectors⟩ := inv'.bounded o.live
    exact ⟨⟨n, le, bytes, size, sectors⟩, leads, broke⟩

end

variable {disk : Disk} {log : Log} {capacity : Nat} {time : Int64}

/-- As long as no transfer fails, a write to a file that nobody denies is complete just if there are
as many free sectors as the file lacks. It takes exactly these, and leaves none if there are not
enough for it and it began no further than behind the last data sector. Nothing is ever written at
or past the greatest length. -/
theorem Reachable.writes_fit (h : Reachable disk log total capacity time v c)
    (opened : 0 < (v.node id).opens) (allowed : (v.node id).denials = 0) (data : Bytes)
    (some : 0 < data.size) (offset : Nat) :
    Ends freeCount v (fun count _ => count = v.spare total)
        (fun e v' => (∃ cause, e = .fault (.device cause)) ∧
          v.space.storage.disk.failures < v'.space.storage.disk.failures) ∧
      Ends (writeAt id data offset) v
        (fun n v' => v.Bounded (v.node id).sector data offset n v' ∧
          (v'.space.storage.disk.failures = disk.failures → offset + data.size ≤ maxFileSize →
            v.Fits total (v.node id).sector data offset n v' ∧
              Ends freeCount v' (fun count _ => count = v'.spare total)
                fun e v'' => (∃ cause, e = .fault (.device cause)) ∧
                  v'.space.storage.disk.failures < v''.space.storage.disk.failures))
        fun e v' => (∃ n, v.Bounded (v.node id).sector data offset n v') ∧
          (∃ cause, e = .fault (.device cause)) ∧
            v.space.storage.disk.failures < v'.space.storage.disk.failures := by
  let : Promise := promise disk total
  obtain ⟨allocator, trees, inv⟩ := h.inv_of_bitmap
  have o := inv.tabled.opened opened
  have counts : ∀ {w : Volume} {trees : SectorId → Tree}, w.Inv disk.failures c trees →
      w.space.allocator = .bitmap (FreeMap.ofTotal total.toNat) →
      Ends freeCount w (fun count _ => count = w.spare total)
        fun e w' => (∃ cause, e = .fault (.device cause)) ∧
          w.space.storage.disk.failures < w'.space.storage.disk.failures := by
    intro w trees inv allocator
    refine (meets_freeCount inv).ends.mono (fun _ _ h' => h'.2 _ allocator) ?_
    rintro e w' ⟨cause, rfl, -, ⟨cause, rfl⟩, failed⟩
    exact ⟨⟨cause, rfl⟩, failed⟩
  have writing := inv.meets_writing o h.bitmap_of_follows allowed data some offset
  refine ⟨counts inv allocator, writing.ends.mono ?_ ?_⟩
  · rintro n v' ⟨bounded, trees', inv', allocator', fits⟩
    exact ⟨bounded, fun clean inside => ⟨fits clean inside, counts inv' allocator'⟩⟩
  · rintro _ v' ⟨cause, rfl, bounded, -, ⟨cause, rfl⟩, failed⟩
    exact ⟨bounded, ⟨cause, rfl⟩, failed⟩

/-- In a small memory a file is open that nobody denies. -/
theorem exists_writable_file : ∃ v s id,
    Reachable (Disk.memory 16) {} 16 1 0 v ⟨[], [s], [], ⟨[id], [], []⟩⟩ ∧
      v.bytes s = Array.replicate 1000 0 ∧ v.space.storage.disk.failures = 0 ∧
        (v.node id).denials = 0 := by
  obtain ⟨v₀, v₁, v₂, v₃, s, id, e₀, e₁, e₂, e₃, zeros, clean, -⟩ := exists_opening
  have orderly : Orderly False (Disk.memory 16) {} 16 1 0 id v₃ _ ⟨1, 0, 0⟩ := .opening e₀ e₁ e₂ e₃
  exact ⟨v₃, s, id, .opening e₀ e₁ e₂ e₃, zeros, clean, orderly.denials_eq⟩

/-- A file in a small memory lacks no more for four data sectors than is free. -/
theorem Reachable.lacking_le_spare {v : Volume} {s : SectorId} {id : NodeId}
    (run : Reachable (Disk.memory 16) {} 16 1 0 v ⟨[], [s], [], ⟨[id], [], []⟩⟩)
    (clean : v.space.storage.disk.failures = 0) : (v.mappedOf s).lacking 4 ≤ v.spare 16 := by
  have spare := run.spare_of_memory clean
  have four : totalSectors 4 = 4 := by decide
  unfold MappedSectors.lacking
  split <;> omega

/-- There is room for a write to a fourth data sector. -/
theorem exists_write : ∃ v s id v', Reachable (Disk.memory 16) {} 16 1 0 v ⟨[], [s], [], ⟨[id], [], []⟩⟩ ∧
    v.bytes s = Array.replicate 1000 0 ∧ v.space.storage.disk.failures = 0 ∧
      writeAt id #[1, 2, 3] 2000 v = .ok (3 : Nat) v' := by
  obtain ⟨v, s, id, run, zeros, clean, allowed⟩ := exists_writable_file
  let : Promise := promise (Disk.memory 16) 16
  have works : Promise.works := working_memory
  obtain ⟨-, trees, inv⟩ := run.inv_of_bitmap
  have o : v.Opened _ id _ := inv.opened (List.mem_singleton_self id)
  have here : (v.node id).sector = s := List.mem_singleton.1 o.live
  rw [here] at o
  obtain ⟨n, v', e, -, trees', inv', -, fits⟩ := (inv.meets_writing o run.bitmap_of_follows allowed
    #[1, 2, 3] (by decide) 2000).ends.returns fun _ _ ⟨_, _, _, leads, broke⟩ =>
      let ⟨_, inv'⟩ := leads.inv
      inv'.not_broke broke works
  have fits := fits (inv'.clean works) (by decide)
  obtain rfl : n = 3 := fits.complete_iff.2 (run.lacking_le_spare clean)
  exact ⟨v, s, id, v', run, zeros, clean, e⟩

/-- A small memory has room for a write to a fourth data sector, but not to a fourteenth. -/
theorem writes_fit_of_open_file : ∃ v s id c, Reachable (Disk.memory 16) {} 16 1 0 v c ∧
    0 < (v.node id).opens ∧ (v.node id).denials = 0 ∧
      (∃ v', writeAt id #[1, 2, 3] 2000 v = .ok 3 v' ∧
        v'.spare 16 + (v.mappedOf s).lacking 4 = v.spare 16) ∧
      ∃ n v', writeAt id #[1, 2, 3] 7000 v = .ok n v' ∧ n < 3 := by
  obtain ⟨v, s, id, run, -, clean, allowed⟩ := exists_writable_file
  let : Promise := memoryPromise
  have works : Promise.works := trivial
  obtain ⟨trees, inv⟩ := run.probed.inv_of_memory
  have hid : id ∈ [id] := List.mem_singleton_self id
  have o : v.Opened _ id _ := inv.opened hid
  have here : (v.node id).sector = s := List.mem_singleton.1 o.live
  have spare := run.spare_of_memory clean
  have writes : ∀ offset, offset + 3 ≤ maxFileSize → ∃ n v', writeAt id #[1, 2, 3] offset v = .ok n v' ∧
      v.Fits 16 s #[1, 2, 3] offset n v' ∧ n ≤ 3 := by
    intro offset inside
    have writing := (run.writes_fit o.opens allowed #[1, 2, 3] (by decide) offset).2
    rw [here] at writing
    cases e : writeAt id #[1, 2, 3] offset v with
    | ok n v' =>
      obtain ⟨bounded, fits⟩ := writing.ok e
      obtain ⟨_, inv'⟩ := (run.answered (r := .writeAt id _ offset) hid e).probed.inv_of_memory
      have le : n ≤ min 3 (maxFileSize - offset) := bounded.le
      exact ⟨n, v', rfl, (fits (inv'.clean works) inside).1, by omega⟩
    | error f v' =>
      obtain ⟨-, -, failed⟩ := writing.error e
      obtain ⟨_, inv'⟩ := (run.failed (r := .writeAt id _ offset) hid e).probed.inv_of_memory
      have clean' : v'.space.storage.disk.failures = 0 := inv'.clean works
      omega
  have fourteen : totalSectors 14 = 15 := by decide
  refine ⟨v, s, id, _, run, o.opens, allowed, ?_, ?_⟩
  · obtain ⟨n, v', e, fits, -⟩ := writes 2000 (by decide)
    obtain rfl : n = 3 := fits.complete_iff.2 (run.lacking_le_spare clean)
    exact ⟨v', e, fits.taken rfl⟩
  · obtain ⟨n, v', e, fits, -⟩ := writes 7000 (by decide)
    have lacking : v.spare 16 < (v.mappedOf s).lacking 14 := by
      unfold MappedSectors.lacking
      split <;> omega
    exact ⟨n, v', e, fits.short lacking⟩

end Volume

end SectorVolume
