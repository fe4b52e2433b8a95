import SectorVolume.Proofs.Volume.Shortage

/-!
# Writes that are cut short

Whichever transfers fail during a write, the file gets a prefix of what was to be written and a
length that covers it, and the other files stay as they are. The sector of the inode holds its
record afterwards, as it did before, unless the write fails to save the record in its last step.
-/

namespace SectorVolume

open SectorVolume.Action

namespace Volume

variable {disk : Disk} {log : Log} {total : UInt32} {capacity : Nat} {time : Int64}
  {v v' : Volume} {c : Client} {s : SectorId} {id : NodeId}

/-- From `v` to `v'` the first `k` bytes of `data` were written to the file at `s`, from `offset`
on, and nothing was done to any other file. -/
structure Prefixed (v : Volume) (c : Client) (s : SectorId) (data : Bytes) (offset k : Nat)
    (v' : Volume) : Prop where
  le : k ≤ data.size
  bytes : v'.bytes s =
    if k = 0 then v.bytes s else (v.bytes s).overwritten offset (data.extract 0 k)
  length : v'.lengthOf s = if k = 0 then v.lengthOf s else max (v.lengthOf s) (offset + k)
  others : ∀ s' ∈ c.live, s' ≠ s → v'.bytes s' = v.bytes s' ∧ v'.lengthOf s' = v.lengthOf s'

theorem Leads.prefixed [Promise] {floor : Nat} (leads : v.Leads floor c (· = s) v' c) {data : Bytes}
    {offset k : Nat} (le : k ≤ data.size) (bytes : v'.bytes s =
      if k = 0 then v.bytes s else (v.bytes s).overwritten offset (data.extract 0 k)) :
    v.Prefixed c s data offset k v' := by
  refine ⟨le, bytes, ?_, fun s' live ne => ?_⟩
  · rw [← size_bytes, bytes, ← size_bytes]
    split
    · rfl
    · rw [Bytes.size_overwritten, Array.size_extract]
      omega
  · have same := leads.bytes s' live ne
    exact ⟨same, by rw [← size_bytes, ← size_bytes, same]⟩

/-- A write to an open inode whose sector holds its record puts a prefix of the data into the file,
however it ends and whatever the fault plan of `disk` lets fail: all of what it reports, if it
succeeds. It fails only with a transfer. The sector holds the record afterwards, unless the write
itself failed to save it. -/
theorem Reachable.writes_prefix (h : Reachable disk log total capacity time v c)
    (opened : 0 < (v.node id).opens) (coherent : v.Coherent (v.node id).sector) (data : Bytes)
    (offset : Nat) :
    Ends (writeAt id data offset) v
      (fun n v' => v.Prefixed c (v.node id).sector data offset n v' ∧
        v'.Coherent (v.node id).sector)
      fun e v' => (∃ k, v.Prefixed c (v.node id).sector data offset k v') ∧
        v.space.storage.disk.failures < v'.space.storage.disk.failures ∧
          ∃ cause, e = .fault (.device cause) ∧ (v'.Coherent (v.node id).sector ∨
            v.FailsToSave id data offset (.device cause) v') := by
  let : Promise := promise disk total
  obtain ⟨v₀, trees, -, -, inv⟩ := h.inv (fun works => works) (Nat.le_refl _) (Nat.le_of_lt total.toNat_lt)
  refine (meets_writeAt inv (inv.tabled.opened opened) data offset).ends.mono ?_ ?_
  · intro n v' ⟨leads, ⟨le, bytes⟩, saved, _⟩
    exact ⟨leads.prefixed (by omega) bytes, saved coherent⟩
  · rintro _ v' ⟨e, rfl, ⟨leads, ⟨cause, rfl⟩, failed⟩, ⟨k, le, bytes⟩, saved⟩
    exact ⟨⟨k, leads.prefixed (by omega) bytes⟩, failed, cause, rfl, saved coherent⟩

/-- In a small memory a file of 1000 bytes is written behind its end. -/
theorem writes_prefix_of_open_file : ∃ v s id c v',
    Reachable (Disk.memory 16) {} 16 1 0 v c ∧ 0 < (v.node id).opens ∧ v.Coherent s ∧
      v.bytes s = Array.replicate 1000 0 ∧ writeAt id #[1, 2, 3] 2000 v = .ok 3 v' ∧
        v.Prefixed c s #[1, 2, 3] 2000 3 v' ∧ v'.Coherent s := by
  obtain ⟨v, s, id, v', run, zeros, clean, e⟩ := exists_write
  let : Promise := memoryPromise
  obtain ⟨trees, inv⟩ := run.probed.inv_of_memory
  have o : v.Opened _ id _ := inv.opened (List.mem_singleton_self id)
  have here : (v.node id).sector = s := List.mem_singleton.1 o.live
  have coherent : v.Coherent (v.node id).sector := inv.current clean _ o.live
  have written := (run.writes_prefix o.opens coherent #[1, 2, 3] 2000).ok e
  rw [here] at coherent written
  exact ⟨v, s, id, _, v', run, o.opens, coherent, zeros, e, written⟩

end Volume

end SectorVolume
