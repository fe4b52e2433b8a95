import SectorVolume.Proofs.Volume.Shortage

/-!
# Files as byte strings

To its client a volume is a map from live inodes to byte strings. `Request.Refines` tells for every
request what the answer has to do with these byte strings, and which map there is afterwards. The
map afterwards is given as a whole, so that nothing is said of one inode at the cost of another.
-/

namespace SectorVolume

open SectorVolume.Action

namespace Volume

variable {v v' : Volume} {c c' : Client} {s : SectorId} {b : Bytes}

/-- The byte strings of the live inodes. -/
def files (v : Volume) (c : Client) (s : SectorId) : Option Bytes :=
  if s ∈ c.live then some (v.bytes s) else none

theorem files_of_live (h : s ∈ c.live) : v.files c s = some (v.bytes s) := if_pos h

theorem mem_files : b ∈ v.files c s ↔ s ∈ c.live ∧ v.bytes s = b := by
  unfold files
  by_cases h : s ∈ c.live <;> simp [h]

theorem files_eq (live : ∀ s, s ∈ c'.live ↔ s ∈ c.live)
    (same : ∀ s ∈ c.live, v'.bytes s = v.bytes s) : v'.files c' = v.files c := by
  funext s
  unfold files
  by_cases hs : s ∈ c.live
  · rw [if_pos hs, if_pos ((live s).2 hs), same s hs]
  · rw [if_neg hs, if_neg fun h => hs ((live s).1 h)]

/-- Only the file at `s` changes, or is new. -/
theorem files_update (bytes : v'.bytes s = b) (live : ∀ s', s' ∈ c'.live ↔ s' = s ∨ s' ∈ c.live)
    (same : ∀ s' ∈ c.live, s' ≠ s → v'.bytes s' = v.bytes s') :
    v'.files c' = Function.update (v.files c) s (some b) := by
  funext s'
  unfold files
  by_cases e : s' = s
  · subst e
    rw [if_pos ((live s').2 (.inl rfl)), Function.update_self, bytes]
  · rw [Function.update_of_ne e]
    by_cases hs : s' ∈ c.live
    · rw [if_pos hs, if_pos ((live s').2 (.inr hs)), same s' hs e]
    · rw [if_neg hs, if_neg fun h => hs (((live s').1 h).resolve_left e)]

/-- The file at `s` ends. -/
theorem files_erase (nodup : c.live.Nodup) (live : c'.live = c.live.erase s)
    (same : ∀ s' ∈ c'.live, v'.bytes s' = v.bytes s') :
    v'.files c' = Function.update (v.files c) s none := by
  funext s'
  unfold files
  rw [live] at same ⊢
  by_cases e : s' = s
  · subst e
    rw [Function.update_self, if_neg nodup.not_mem_erase]
  · rw [Function.update_of_ne e]
    by_cases hs : s' ∈ c.live
    · have mem := (List.mem_erase_of_ne e).2 hs
      rw [if_pos hs, if_pos mem, same s' mem]
    · rw [if_neg hs, if_neg fun h => hs (List.mem_of_mem_erase h)]

end Volume

namespace Request

/-- What a request and its answer have to do with the byte strings of the live inodes, for the
volume `v` and the client `c` before it and `v'` and `c'` after it. -/
def Refines (v : Volume) (c : Client) (v' : Volume) (c' : Client) : (r : Request) → r.Answer → Prop
  | allocateInode, sector => v.files c sector = none ∧ v'.files c' = v.files c
  | createInode sector length _, _ => v.files c sector = none ∧
    v'.files c' = Function.update (v.files c) sector (some (Array.replicate length 0))
  | openInode sector, id => (v'.node id).sector = sector ∧ v'.files c' = v.files c
  | readAt id offset len, bytes =>
    (∃ b ∈ v.files c (v.node id).sector, bytes = b.extract offset (offset + len)) ∧
      v'.files c' = v.files c
  | writeAt id bytes offset, (written : Nat) => written ≤ bytes.size ∧
    ∃ b ∈ v.files c (v.node id).sector,
      v'.files c' = Function.update (v.files c) (v.node id).sector (some <|
        if written = 0 then b else b.overwritten offset (bytes.extract 0 written))
  | setLength id length, _ => length ≤ 512 * (v.mappedOf (v.node id).sector).data.length ∧
    ∃ b ∈ v.files c (v.node id).sector,
      v'.files c' = Function.update (v.files c) (v.node id).sector (some (b.resized length))
  | closeInode id, _ => v'.files c' =
    if (c.handles.drop id).Dead id then Function.update (v.files c) (v.node id).sector none
    else v.files c
  | reopen _, _ | remove _, _ | denyWrites _, _ | allowWrites _, _ | mappedSectors _, _ | flush, _
  | close, _ | freeCount, _ => v'.files c' = v.files c

variable [Promise] {floor : Nat} {v v' : Volume} {c : Client} {trees : SectorId → Tree}

/-- The effect of a request on the file that it is about, and the frame for all other files, make up
the map of all files. -/
theorem refines_of_leads (h : v.Inv floor c trees) {r : Request} (allowed : r.Allowed c)
    {a : r.Answer}
    (leads : v.Leads floor c (fun s => r.target v = some s ∨ s ∉ (r.answered c v' a).live) v'
      (r.answered c v' a)) (effect : r.Effect v v' a) :
    r.Refines v c v' (r.answered c v' a) a := by
  have same : (∀ s, s ∈ (r.answered c v' a).live ↔ s ∈ c.live) → r.target v = none →
      v'.files (r.answered c v' a) = v.files c := by
    intro live none
    refine Volume.files_eq live fun s hs => leads.bytes s hs ?_
    rintro (target | dead)
    · rw [none] at target
      cases target
    · exact dead ((live s).2 hs)
  have edited : ∀ {s b}, r.target v = some s → v'.bytes s = b →
      (∀ s', s' ∈ (r.answered c v' a).live ↔ s' = s ∨ s' ∈ c.live) →
      v'.files (r.answered c v' a) = Function.update (v.files c) s (some b) := by
    intro s b target bytes live
    refine Volume.files_update bytes live fun s' hs' ne => leads.bytes s' hs' ?_
    rintro (target' | dead)
    · rw [target] at target'
      cases target'
      exact ne rfl
    · exact dead ((live s').2 (.inr hs'))
  have mem : ∀ {id}, id ∈ c.handles.ids → (v.node id).sector ∈ c.live :=
    fun hid => (h.opened hid).live
  have there : ∀ {s}, s ∈ c.live → ∀ s', s' ∈ c.live ↔ s' = s ∨ s' ∈ c.live := by
    rintro s hs s'
    exact ⟨.inr, by rintro (rfl | hs') <;> assumption⟩
  cases r with
  | allocateInode =>
    refine ⟨if_neg fun live => ?_, same (fun _ => Iff.rfl) rfl⟩
    exact (h.held_inode (Client.mem_inodes_live live)).2 effect.1
  | createInode s length isDirectory =>
    exact ⟨if_neg (h.not_live_of_blank allowed).1,
      edited rfl effect.1 fun s' => List.mem_cons⟩
  | openInode s => exact ⟨effect.sector, same (fun _ => Iff.rfl) rfl⟩
  | readAt id offset len =>
    exact ⟨⟨_, Volume.files_of_live (mem allowed), effect⟩, same (fun _ => Iff.rfl) rfl⟩
  | writeAt id bytes offset =>
    exact ⟨effect.1, _, Volume.files_of_live (mem allowed),
      edited rfl effect.2 (there (mem allowed))⟩
  | setLength id length =>
    exact ⟨effect.1, _, Volume.files_of_live (mem allowed),
      edited rfl effect.2 (there (mem allowed))⟩
  | closeInode id =>
    have sector := leads.follows.sector id (h.opened allowed).inside
    show _ = if _ then _ else _
    by_cases dead : (c.handles.drop id).Dead id
    · have closed : answered c v' (closeInode id) a = (c.drop id).lose (v.node id).sector := by
        rw [← sector]
        exact if_pos dead
      rw [if_pos dead]
      refine Volume.files_erase h.owns.nodup_live (by rw [closed]; rfl) fun s hs => ?_
      refine leads.bytes s ?_ ?_
      · rw [closed] at hs
        exact List.mem_of_mem_erase hs
      · rintro (none | gone)
        · cases none
        · exact gone hs
    · have closed : answered c v' (closeInode id) a = c.drop id := if_neg dead
      rw [if_neg dead]
      exact same (fun s => by rw [closed]; rfl) rfl
  | reopen | remove | denyWrites | allowWrites | mappedSectors | flush | close | freeCount =>
    exact same (fun _ => Iff.rfl) rfl

end Request

namespace Volume

variable {disk : Disk} {log : Log} {total : UInt32} {capacity : Nat} {time : Int64}
  {v : Volume} {c : Client}

/-- A volume refines the map of byte strings. A request that is answered does with the byte strings
what it should, and one that is refused leaves all of them as they are. No other failure is possible
as long as the disk works. -/
theorem Reachable.refines (h : Reachable disk log total capacity time v c) (r : Request)
    (allowed : r.Allowed c) :
    Ends r.perform v
      (fun a v' => r.Refines v c v' (r.answered c v' a) a ∧
        ∀ id ∈ c.handles.ids, (v'.node id).sector = (v.node id).sector)
      fun e v' => r.Refused v v' e ∧ v'.files (r.failed c v') = v.files c ∨
        (∃ cause, e = .fault (.device cause)) ∧ ¬ disk.Working total.toNat := by
  let : Promise := promise disk total
  obtain ⟨v₀, trees, -, -, inv⟩ := h.inv id (Nat.le_refl _) (Nat.le_of_lt total.toNat_lt)
  refine (Request.ends_perform inv r allowed).mono ?_ ?_
  · intro a v' ⟨leads, effect⟩
    exact ⟨Request.refines_of_leads inv allowed leads effect,
      fun id hid => leads.follows.sector id (inv.opened hid).inside⟩
  · rintro e v' (⟨leads, refused⟩ | ⟨cause, rfl, leads, broke⟩)
    · have client : r.failed c v' = c := by
        cases r with
        | closeInode => exact refused.elim
        | _ => rfl
      rw [client]
      exact .inl ⟨refused, files_eq (fun _ => Iff.rfl) fun s hs => leads.bytes s hs id⟩
    · obtain ⟨_, inv'⟩ := leads.inv
      obtain ⟨⟨cause, rfl⟩, -⟩ := id broke
      exact .inr ⟨⟨cause, rfl⟩, inv'.not_broke broke⟩

/-- In a small memory a file of 1000 bytes is written behind its end, and the bytes in between are
zeros. -/
theorem refines_of_open_file : ∃ v s id v',
    Reachable (Disk.memory 16) {} 16 1 0 v ⟨[], [s], [], ⟨[id], [], []⟩⟩ ∧
      (Request.writeAt id #[1, 2, 3] 2000).perform v = .ok (3 : Nat) v' ∧
        v'.bytes s = Array.replicate 2000 0 ++ #[1, 2, 3] := by
  obtain ⟨v, s, id, v', run, zeros, -, e⟩ := exists_write
  have held : (Request.writeAt id #[1, 2, 3] 2000).Allowed ⟨[], [s], [], ⟨[id], [], []⟩⟩ :=
    List.mem_singleton_self id
  obtain ⟨⟨-, b, hb, files⟩, -⟩ := (run.refines _ held).ok e
  obtain ⟨live, bytes⟩ := mem_files.1 hb
  obtain rfl : (v.node id).sector = s := List.mem_singleton.1 live
  refine ⟨v, _, id, v', run, e, ?_⟩
  have after := (mem_files.1 (Option.mem_def.2 ((congrFun files _).trans
    (Function.update_self ..)))).2
  rw [after, ← bytes, zeros]
  simp [Bytes.overwritten, Bytes.padded]

/-! ## Behind the end of a file -/

/-- Whatever transfers failed, a file is not longer than its sectors, and these hold zeros behind
its end. -/
theorem Reachable.zeros_behind (h : Reachable disk log total capacity time v c) {s : SectorId}
    (hs : s ∈ c.live) :
    v.lengthOf s ≤ 512 * (v.mappedOf s).data.length ∧
      ∀ (k : Nat) (id : SectorId), (v.mappedOf s).data[k]? = some id →
        ∀ j : Fin 512, v.lengthOf s ≤ 512 * k + j → (v.space.storage.logical id).get j = 0 := by
  let : Promise := promise disk total
  obtain ⟨v₀, trees, -, -, inv⟩ := h.inv id (Nat.le_refl _) (Nat.le_of_lt total.toNat_lt)
  have file := inv.files s hs
  rw [file.mappedOf_eq]
  refine ⟨file.room, fun k id entry j behind => ?_⟩
  have hj := j.isLt
  have sector : (512 * k + j.val) / 512 = k := by omega
  have place : (512 * k + j.val) % 512 = j.val := by omega
  have zero := file.zeros (512 * k + j) behind
  rw [byteIn_of_some (by rw [sector]; exact entry)] at zero
  simp only [place] at zero
  exact zero

/-- A file of 1000 bytes has zeros in the last bytes of its second sector. -/
theorem zeros_behind_of_open_file : ∃ v s id,
    Reachable (Disk.memory 16) {} 16 1 0 v ⟨[], [s], [], ⟨[id], [], []⟩⟩ ∧
      ∃ second, (v.mappedOf s).data[1]? = some second ∧
        ∀ j : Fin 512, 488 ≤ j.val → (v.space.storage.logical second).get j = 0 := by
  obtain ⟨v, s, id, run, zeros, -⟩ := exists_open_file
  obtain ⟨room, behind⟩ := run.zeros_behind (List.mem_singleton_self s)
  have length : v.lengthOf s = 1000 := by rw [← size_bytes, zeros, Array.size_replicate]
  rw [length] at room behind
  have there : 1 < (v.mappedOf s).data.length := by omega
  refine ⟨v, s, id, run, _, List.getElem?_eq_getElem there, fun j hj => ?_⟩
  exact behind 1 _ (List.getElem?_eq_getElem there) j (by omega)

end Volume

end SectorVolume
