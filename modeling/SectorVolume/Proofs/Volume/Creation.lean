import SectorVolume.Proofs.Volume.Accounting

/-!
# Creating an inode or nothing

Creating an inode takes all sectors of its file at once, writes them and then the record. Whatever
of that cannot be done, the sectors are given back. So a creation that was refused, or that one
transfer was in the way of, leaves the volume as it was: a second transfer would have to fail for
the giving back to stop halfway.
-/

namespace SectorVolume

open SectorVolume.Action

namespace Volume

variable {v v' : Volume} {c : Client} {s : SectorId} {total : UInt32} {disk : Disk} {log : Log}
  {capacity : Nat} {time : Int64}

/-- In `v'` the same sectors are taken as in `v`, those that wait for an inode hold what they held,
and the files are the same. -/
structure Restored (total : UInt32) (v : Volume) (c : Client) (v' : Volume) : Prop where
  taken : ∀ k, k < bitmapSectors total.toNat * 4096 →
    (FreeMap.ofTotal total.toNat).bit v'.space.storage.logical k =
      (FreeMap.ofTotal total.toNat).bit v.space.storage.logical k
  blank : ∀ s ∈ c.blank, v'.space.storage.logical s = v.space.storage.logical s
  files : ∀ s ∈ c.live, v'.bytes s = v.bytes s ∧ v'.lengthOf s = v.lengthOf s ∧
    v'.mappedOf s = v.mappedOf s

/-- The same bits are set when the same sectors are free. -/
theorem bit_eq_of_free (allocator : v.space.allocator = .bitmap (FreeMap.ofTotal total.toNat))
    (allocator' : v'.space.allocator = .bitmap (FreeMap.ofTotal total.toNat))
    (same : ∀ id, v'.space.stock.free id ↔ v.space.stock.free id) {k : Nat}
    (there : k < bitmapSectors total.toNat * 4096) :
    (FreeMap.ofTotal total.toNat).bit v'.space.storage.logical k =
      (FreeMap.ofTotal total.toNat).bit v.space.storage.logical k := by
  have small : bitmapSectors total.toNat * 4096 ≤ UInt32.size := bitmapSectors_le total.toNat_lt
  have number : (UInt32.ofNat k).toNat = k := UInt32.toNat_ofNat_of_lt' (by omega)
  have same := same (UInt32.ofNat k)
  rw [Space.free_iff_of_bitmap allocator, Space.free_iff_of_bitmap allocator', number] at same
  have inside : k < (FreeMap.ofTotal total.toNat).sectors * 4096 := there
  simp only [inside, true_and] at same
  rw [Bool.eq_iff_iff, ← Bool.not_eq_false, ← Bool.not_eq_false, same]

/-- How a creation can fail: the file is too long, there are too few free sectors, or the disk
fails. -/
def RefusesCreation (v : Volume) (length : Nat) (e : Failure) (v' : Volume) : Prop :=
  maxFileSize < length ∧ e = .fault (.sizeLimit length maxFileSize) ∨
    e = .fault (.exhausted (totalSectors (dataSectors length))) ∨
    (∃ cause, e = .fault (.device cause)) ∧
      v.space.storage.disk.failures < v'.space.storage.disk.failures

/-- An inode is created with a file of zeros, or it is not created. If no transfer failed then, or
one did and that is the answer, everything is as before. -/
theorem Reachable.creates_or_restores (h : Reachable disk log total capacity time v c)
    (hs : s ∈ c.blank) (length : Nat) (isDirectory : Bool) :
    Ends (createInode s length isDirectory) v
      (fun _ v' => v'.bytes s = Array.replicate length 0 ∧
        (v'.mappedOf s).data.length = dataSectors length)
      (fun e v' => v.RefusesCreation length e v' ∧
        (v'.space.storage.disk.failures = v.space.storage.disk.failures ∨
            (∃ cause, e = .fault (.device cause)) ∧
              v'.space.storage.disk.failures = v.space.storage.disk.failures + 1 →
          v.Restored total c v')) := by
  let : Promise := promise disk total
  obtain ⟨allocator, trees, inv⟩ := h.inv_of_bitmap
  refine (meets_createInode inv hs length isDirectory).ends.mono ?_ ?_
  · rintro _ v' ⟨-, -, bytes, data⟩
    exact ⟨bytes, data⟩
  · rintro _ v' ⟨e, rfl, outcome, restores⟩
    obtain ⟨keeps, blank, why⟩ : v.Keeps disk.failures c Stock.nowhere v' c ∧
        (∀ s ∈ c.blank, s ∈ c.blank → v'.space.stock.content s = v.space.stock.content s) ∧
        v.RefusesCreation length (.fault e) v' := by
      rcases outcome with ⟨leads, ⟨large, rfl⟩ | ⟨rfl, -⟩⟩ | ⟨keeps, ⟨⟨cause, rfl⟩, failed⟩, spared⟩
      · exact ⟨leads.toKeeps, leads.spared.blank, .inl ⟨large, rfl⟩⟩
      · exact ⟨leads.toKeeps, leads.spared.blank, .inr (.inl rfl)⟩
      · exact ⟨keeps, spared.blank, .inr (.inr ⟨⟨cause, rfl⟩, failed⟩)⟩
    obtain ⟨trees', inv'⟩ := keeps.inv
    refine ⟨why, fun few => ⟨fun k there => ?_, fun s hs => blank s hs hs, fun s hs => ?_⟩⟩
    · have allocator' := h.bitmap_of_follows keeps.follows inv'.space
      refine bit_eq_of_free allocator allocator' (fun id => ?_) there
      refine ⟨restores.none id, restores.all (few.imp_right ?_) id⟩
      rintro ⟨⟨cause, e⟩, one⟩
      cases e
      exact ⟨⟨cause, rfl⟩, Nat.le_of_eq one⟩
    · have same := keeps.same s hs fun no => no
      exact ⟨same.bytes, same.length, same.mapped⟩

/-- In a small memory a file with fourteen data sectors cannot be created, and nothing is left of
the attempt. -/
theorem restored_after_exhaustion : ∃ v s v',
    Reachable (Disk.memory 16) {} 16 1 0 v ⟨[s], [], [], .empty⟩ ∧
      createInode s 7168 false v = .error (.fault (.exhausted 15)) v' ∧
      v.Restored 16 ⟨[s], [], [], .empty⟩ v' := by
  obtain ⟨v₀, v, -, -, s, -, e₀, e₁, -⟩ := exists_opening
  have run : Reachable (Disk.memory 16) {} 16 1 0 v ⟨[s], [], [], .empty⟩ :=
    (Reachable.format e₀).answered (r := .allocateInode) trivial e₁
  have creating := run.creates_or_restores (List.mem_singleton_self s) 7168 false
  let : Promise := memoryPromise
  have works : Promise.works := trivial
  obtain ⟨_, inv⟩ := run.probed.inv_of_memory
  cases e : createInode s 7168 false v with
  | ok _ v' =>
    -- there are fourteen sectors, and one of them has the record
    have run' := run.answered (r := .createInode s 7168 false) (List.mem_singleton_self s) e
    obtain ⟨_, inv'⟩ := run'.probed.inv_of_memory
    obtain ⟨-, data⟩ := creating.ok e
    have added := run'.spare_add (inv'.clean works)
    have many : dataSectors 7168 = 14 := by decide
    have all : (16 : UInt32).toNat - (1 + bitmapSectors (16 : UInt32).toNat) = 14 := by decide
    rw [all] at added
    simp only [holdings, Client.inodes, Request.answered, List.erase_cons_head, List.append_nil,
      List.nil_append, List.flatMap_cons, List.flatMap_nil, List.cons_append, List.length_cons,
      List.length_append, data, many] at added
    omega
  | error f v' =>
    obtain ⟨why, restored⟩ := creating.error e
    have run' := run.failed (r := .createInode s 7168 false) (List.mem_singleton_self s) e
    obtain ⟨_, inv'⟩ := run'.probed.inv_of_memory
    have clean : v.space.storage.disk.failures = 0 := inv.clean works
    have clean' : v'.space.storage.disk.failures = 0 := inv'.clean works
    rcases why with ⟨large, -⟩ | rfl | ⟨-, failed⟩
    · exact absurd large (by decide)
    · have total : totalSectors (dataSectors 7168) = 15 := by decide
      exact ⟨v, s, v', run, total ▸ e, restored (.inl (clean'.trans clean.symm))⟩
    · omega

end Volume

end SectorVolume
