import SectorVolume.Proofs.Volume.Shortage

/-!
# Volumes on disks that work

On a disk that works every request is answered that there is no reason to refuse, and leaves the
files alone that it is not about. A file that was written in one go takes the data sectors that its
bytes need and the index blocks that these need.
-/

namespace SectorVolume

open SectorVolume.Action

namespace Volume

/-- The file at `s` has these bytes, and no more sectors than they need. -/
structure Stores (v : Volume) (s : SectorId) (bytes : Bytes) : Prop where
  bytes_eq : v.bytes s = bytes
  snug : (v.mappedOf s).data.length + (v.mappedOf s).index.length =
    totalSectors (dataSectors bytes.size)

variable {v v' : Volume} {s : SectorId} {bytes : Bytes}

theorem Matches.stores (h : Matches v v' s) (stores : v.Stores s bytes) : v'.Stores s bytes :=
  ⟨h.bytes.trans stores.bytes_eq, by rw [h.mapped, stores.snug]⟩

variable [Promise] {total : UInt32} {time : Int64} {c c' : Client} {X : SectorId → Prop} {id : NodeId}

omit [Promise] in
/-- One inode less is accounted for. -/
theorem length_holdings_erase {live : List SectorId} (hs : s ∈ live) (handles handles' : Handles)
    (same : ∀ s' ∈ live.erase s, v'.mappedOf s' = v.mappedOf s') :
    (v.holdings ⟨[], live, [], handles⟩).length =
      (v'.holdings ⟨[], live.erase s, [], handles'⟩).length +
        ((v.mappedOf s).data.length + (v.mappedOf s).index.length + 1) := by
  have perm := List.perm_cons_erase hs
  have below := (perm.flatMap_right fun s => (v.mappedOf s).data ++ (v.mappedOf s).index).length_eq
  have alike : (live.erase s).flatMap (fun s => (v'.mappedOf s).data ++ (v'.mappedOf s).index) =
      (live.erase s).flatMap fun s => (v.mappedOf s).data ++ (v.mappedOf s).index :=
    Client.flatMap_congr_of_mem fun s' hs' => by rw [same s' hs']
  have inodes := perm.length_eq
  unfold holdings Client.inodes
  rw [alike]
  simp only [List.flatMap_cons, List.length_append, List.length_cons, List.length_nil] at below inodes ⊢
  omega

/-- A volume at work on a disk that works. -/
structure Serves (total : UInt32) (time : Int64) (v : Volume) (c : Client) : Prop where
  works : Promise.works
  sectors : Promise.sectors = total.toNat
  room : 1 + bitmapSectors total.toNat < total.toNat
  inv : ∃ trees, v.Inv 0 c trees
  allocator : v.space.allocator = .bitmap (FreeMap.ofTotal total.toNat)
  label : Superblock.ofSector (v.space.storage.logical 0) = Superblock.ofTotal total time

/-- A new volume has no inodes. -/
theorem Fresh.serves (h : v.Fresh total time) (works : Promise.works)
    (sectors : Promise.sectors = total.toNat) (room : 1 + bitmapSectors total.toNat < total.toNat) :
    v.Serves total time .empty := by
  have small := total.toNat_lt
  have sound := h.sound (by omega) (by rw [sectors]; exact Nat.le_of_lt small) (by omega)
  exact ⟨works, sectors, room, ⟨_, h.inv sound (by omega) (Nat.zero_le _)⟩, h.allocator, h.label⟩

namespace Serves

theorem opened (h : v.Serves total time c) (hid : id ∈ c.handles.ids) :
    v.Opened c id (v.node id).sector :=
  let ⟨_, inv⟩ := h.inv
  inv.opened hid

theorem usable_iff (h : v.Serves total time c) :
    v.space.stock.Usable s ↔ 1 + bitmapSectors total.toNat ≤ s.toNat ∧ s.toNat < total.toNat :=
  let ⟨_, inv⟩ := h.inv
  inv.space.usable_iff h.allocator

/-- An inode stands behind the bitmap, and within the volume. -/
theorem inside (h : v.Serves total time c) (hs : s ∈ c.live) :
    1 + bitmapSectors total.toNat ≤ s.toNat ∧ s.toNat < total.toNat := by
  obtain ⟨trees, inv⟩ := h.inv
  have held := inv.owns.held s (List.mem_append_left _ (List.mem_append_right _ hs))
  exact h.usable_iff.1 held.1

theorem clean (h : v.Serves total time c) : v.space.stock.failures = 0 :=
  let ⟨_, inv⟩ := h.inv
  inv.clean h.works

/-- Every sector behind the bitmap is free or accounted for. -/
theorem spare_add (h : v.Serves total time c) :
    v.spare total + (v.holdings c).length = total.toNat - (1 + bitmapSectors total.toNat) :=
  let ⟨_, inv⟩ := h.inv
  inv.clearBits_add h.allocator h.clean

theorem leads (h : v.Serves total time c) (leads : v.Leads 0 c X v' c') : v'.Serves total time c' := by
  obtain ⟨trees, inv⟩ := leads.inv
  have room := h.room
  have small := total.toNat_lt
  have sectors := h.sectors
  refine ⟨h.works, sectors, room, ⟨trees, inv⟩, ?_, ?_⟩
  · exact leads.follows.allocator_eq h.allocator inv.space (by omega)
      (by rw [sectors]; exact Nat.le_of_lt small) (by omega)
  · have outside : v'.space.storage.logical 0 = v.space.storage.logical 0 := by
      refine leads.follows.outside 0 (fun own => ?_) fun usable => usable.1 rfl
      unfold Space.stock at own
      simp only [h.allocator] at own
      exact FreeMap.not_holds_zero _ own
    rw [outside, h.label]

/-- A request that there is no reason to refuse is answered, and leaves the files alone that it is
not about. -/
theorem ends_perform (h : v.Serves total time c) (r : Request) (allowed : r.Allowed c)
    (granted : ∀ e v', ¬ r.Refused v v' e) :
    Ends r.perform v
      (fun a v' => v'.Serves total time (r.answered c v' a) ∧ r.Effect v v' a ∧ v.Follows v' ∧
        ∀ s ∈ c.live, r.target v ≠ some s → s ∈ (r.answered c v' a).live → Matches v v' s)
      fun _ _ => False := by
  obtain ⟨trees, inv⟩ := h.inv
  refine (Request.ends_perform inv r allowed).mono (fun a v' ⟨leads, effect⟩ => ?_) ?_
  · exact ⟨h.leads leads, effect, leads.follows, fun s hs other kept =>
      leads.same s hs fun or => or.elim other fun gone => gone kept⟩
  · rintro e v' (⟨-, refused⟩ | ⟨cause, -, moves, broke⟩)
    · exact granted e v' refused
    · obtain ⟨_, inv'⟩ := moves.inv
      exact inv'.not_broke broke h.works

/-! ## Requests -/

/-- A sector is handed out unless none is free. -/
theorem ends_allocateInode (h : v.Serves total time c) :
    Ends allocateInode v
      (fun s v' => v'.Serves total time { c with blank := s :: c.blank } ∧
        ∀ s' ∈ c.live, Matches v v' s')
      fun e _ => e = .fault (.exhausted 1) ∧ v.spare total = 0 := by
  obtain ⟨trees, inv⟩ := h.inv
  refine (meets_allocateInode inv).ends.mono ?_ ?_
  · rintro s v' ⟨leads, -⟩
    exact ⟨h.leads leads, fun s' hs' => leads.same s' hs' id⟩
  · rintro _ v' ⟨cause, rfl, leads, denied⟩
    have serves := h.leads leads
    rcases denied with ⟨rfl, short | failed⟩ | ⟨broke, -⟩
    · have few : v'.spare total < 1 := spare_lt serves.allocator short
      have same : v'.holdings c = v.holdings c := by
        unfold holdings
        exact congrArg _ (Client.flatMap_congr_of_mem fun s hs => by
          rw [(leads.same s hs fun no => no).mapped])
      have before := h.spare_add
      have after := serves.spare_add
      rw [same] at after
      exact ⟨rfl, by omega⟩
    · rw [serves.clean] at failed
      exact absurd failed (Nat.not_lt_zero _)
    · obtain ⟨_, inv'⟩ := serves.inv
      exact absurd h.works (inv'.not_broke broke)

/-- An empty inode takes nothing but the sector that it is created at. -/
theorem ends_createInode (h : v.Serves total time c) (hs : s ∈ c.blank) (isDirectory : Bool) :
    Ends (createInode s 0 isDirectory) v
      (fun _ v' => v'.Serves total time { c with blank := c.blank.erase s, live := s :: c.live } ∧
        v'.bytes s = #[] ∧ v'.mappedOf s = ⟨[], []⟩ ∧ ∀ s' ∈ c.live, Matches v v' s')
      fun _ _ => False := by
  obtain ⟨trees, inv⟩ := h.inv
  have clean : ∀ {v' X c'}, v.Leads 0 c X v' c' → v'.space.stock.failures = 0 := fun leads =>
    (h.leads leads).clean
  refine (meets_createInode inv hs 0 isDirectory).ends.mono ?_ ?_
  · rintro _ v' ⟨leads, -, bytes, data⟩
    obtain ⟨_, inv'⟩ := leads.inv
    have index := inv'.index_of_few List.mem_cons_self (by rw [data]; decide)
    have none := List.eq_nil_of_length_eq_zero data
    have fields : v'.mappedOf s = ⟨(v'.mappedOf s).data, (v'.mappedOf s).index⟩ := rfl
    rw [none, index] at fields
    exact ⟨h.leads leads, bytes, fields, fun s' hs' => leads.same s' hs' id⟩
  · rintro _ v' ⟨cause, -, ⟨leads, ⟨large, -⟩ | ⟨-, short | failed⟩⟩ | ⟨keeps, broke, -⟩, -⟩
    · exact Nat.not_lt_zero _ large
    · exact Nat.not_lt_zero _ (short [] List.nodup_nil nofun)
    · rw [clean leads] at failed
      exact Nat.not_lt_zero _ failed
    · obtain ⟨_, inv'⟩ := keeps.inv
      exact inv'.not_broke broke h.works

/-- Nobody denies writes to a node that was just made. -/
theorem ends_openInode (h : v.Serves total time c) (hs : s ∈ c.live) :
    Ends (openInode s) v
      (fun id v' => v'.Serves total time { c with handles := c.handles.add id } ∧
        v.Shows s (v'.node id) ∧ (c.handles = .empty → (v'.node id).denials = 0) ∧
        ∀ s' ∈ c.live, Matches v v' s')
      fun _ _ => False := by
  obtain ⟨trees, inv⟩ := h.inv
  have held := inv.held_inode (Client.mem_inodes_live hs)
  have finding := (meets_openSector inv.space.storage fun _ => held.1.lt).ends
  refine ((h.ends_perform (.openInode s) hs fun _ _ no => no).and finding).mono ?_ fun _ _ no => no.1
  rintro id v' ⟨⟨serves, shows, -, same⟩, found⟩
  refine ⟨serves, shows, fun closed => ?_, fun s' hs' => same s' hs' nofun hs'⟩
  rcases found with ⟨-, entry, -⟩ | ⟨-, -, -, idles⟩
  · rw [inv.lookup_of_closed closed hs] at entry
    cases entry
  · have made : v'.node v.nodes.size = Node.ofRecord s (v.recordOf s) := by
      rw [idles.rest]
      exact (node_opened v s _).trans (if_pos rfl)
    rw [made]
    rfl

theorem ends_readAt (h : v.Serves total time c) (hid : id ∈ c.handles.ids)
    (sector : (v.node id).sector = s) (offset len : Nat) :
    Ends (readAt id offset len) v
      (fun bytes v' => v'.Serves total time c ∧ (v'.node id).sector = s ∧
        bytes = (v.bytes s).extract offset (offset + len) ∧ ∀ s' ∈ c.live, Matches v v' s')
      fun _ _ => False := by
  refine (h.ends_perform (.readAt id offset len) hid fun _ _ no => no).mono ?_ fun _ _ no => no
  rintro bytes v' ⟨serves, read, follows, same⟩
  exact ⟨serves, (follows.sector id (h.opened hid).inside).trans sector, sector ▸ read,
    fun s' hs' => same s' hs' nofun hs'⟩

theorem ends_remove (h : v.Serves total time c) (hid : id ∈ c.handles.ids)
    (sector : (v.node id).sector = s) :
    Ends (remove id) v
      (fun _ v' => v'.Serves total time { c with handles := c.handles.remove id } ∧
        (v'.node id).sector = s ∧ ∀ s' ∈ c.live, Matches v v' s')
      fun _ _ => False := by
  refine (h.ends_perform (.remove id) hid fun _ _ no => no).mono ?_ fun _ _ no => no
  rintro _ v' ⟨serves, -, follows, same⟩
  exact ⟨serves, (follows.sector id (h.opened hid).inside).trans sector,
    fun s' hs' => same s' hs' nofun hs'⟩

theorem ends_freeCount (h : v.Serves total time c) :
    Ends freeCount v
      (fun count v' => v'.Serves total time c ∧
        count = (FreeMap.ofTotal total.toNat).clearBits v.space.storage.logical ∧
        ∀ s ∈ c.live, Matches v v' s)
      fun _ _ => False := by
  refine (h.ends_perform .freeCount trivial fun _ _ no => no).mono ?_ fun _ _ no => no
  rintro count v' ⟨serves, counted, -, same⟩
  exact ⟨serves, counted _ h.allocator, fun s hs => same s hs nofun hs⟩

theorem ends_close (h : v.Serves total time c) :
    Ends close v
      (fun _ v' => v'.Serves total time c ∧ v'.space.storage.Flushed ∧ ∀ s ∈ c.live, Matches v v' s)
      fun _ _ => False := by
  refine (h.ends_perform .close trivial fun _ _ no => no).mono ?_ fun _ _ no => no
  rintro _ v' ⟨serves, flushed, -, same⟩
  exact ⟨serves, flushed, fun s hs => same s hs nofun hs⟩

theorem ends_closeInode (h : v.Serves total time c) (hid : id ∈ c.handles.ids)
    (sector : (v.node id).sector = s) :
    Ends (closeInode id) v
      (fun _ v' => v'.Serves total time (c.closed id s) ∧ (v'.node id).sector = s ∧
        ∀ s' ∈ c.live, s' ∈ (c.closed id s).live → Matches v v' s')
      fun _ _ => False := by
  refine (h.ends_perform (.closeInode id) hid fun _ _ no => no).mono ?_ fun _ _ no => no
  rintro _ v' ⟨serves, -, follows, same⟩
  have sector' : (v'.node id).sector = s := (follows.sector id (h.opened hid).inside).trans sector
  change v'.Serves total time (c.closed id (v'.node id).sector) at serves
  change ∀ s' ∈ c.live, _ → s' ∈ (c.closed id (v'.node id).sector).live → _ at same
  rw [sector'] at serves same
  exact ⟨serves, sector', fun s' hs' => same s' hs' nofun⟩

/-- A write of all bytes at the beginning of an empty file takes no more sectors than they need. -/
theorem ends_writeAt (h : v.Serves total time c) (hid : id ∈ c.handles.ids)
    (sector : (v.node id).sector = s) (data : Bytes) (offset : Nat) :
    Ends (writeAt id data offset) v
      (fun n v' => v'.Serves total time c ∧ (v'.node id).sector = s ∧ n ≤ data.size ∧
        v'.bytes s = (if n = 0 then v.bytes s else (v.bytes s).overwritten offset (data.extract 0 n)) ∧
        (∀ s' ∈ c.live, s' ≠ s → Matches v v' s') ∧
        ((v.mappedOf s).data = [] → n = data.size →
          (v'.mappedOf s).data.length ≤ dataSectors (offset + n) ∧
          (v'.mappedOf s).index.length ≤ indexSectors (dataSectors (offset + n))) ∧
        ((v.node id).denials = 0 → 0 < data.size → offset + data.size ≤ maxFileSize →
          v.Fits total s data offset n v'))
      fun _ _ => False := by
  obtain ⟨trees, inv⟩ := h.inv
  have o := inv.opened hid
  rw [sector] at o
  refine (meets_writeAt inv o data offset).ends.mono ?_ ?_
  · rintro n v' ⟨leads, ⟨le, bytes⟩, -, t, mapped, spends⟩
    have serves := h.leads leads
    refine ⟨serves, (leads.follows.sector id o.inside).trans sector, by omega, bytes, leads.same,
      fun empty all => ?_, fun allowed some inside => ?_⟩
    · have thrifty := spends.all all
      have file := inv.files s o.live
      rw [file.mappedOf_eq] at empty
      have none : (trees s).data.length = 0 := congrArg List.length empty
      obtain ⟨data, blocks⟩ := thrifty
      rw [file.tree.blocks_of_few (by omega)] at blocks
      rw [mapped]
      show t.data.length ≤ _ ∧ t.blocks.length ≤ _
      simp only [List.length_nil] at blocks
      exact ⟨by omega, by omega⟩
    · exact inv.fits o h.allocator serves.allocator leads serves.clean some inside allowed (by omega)
        mapped spends
  · rintro _ v' ⟨cause, rfl, ⟨leads, broke⟩, -⟩
    obtain ⟨_, inv'⟩ := leads.inv
    exact inv'.not_broke broke h.works

/-- A file with no more sectors than its bytes need has as many as they need. -/
theorem stores (h : v.Serves total time c) (hs : s ∈ c.live) (eq : v.bytes s = bytes)
    (data : (v.mappedOf s).data.length ≤ dataSectors bytes.size)
    (index : (v.mappedOf s).index.length ≤ indexSectors (dataSectors bytes.size)) :
    v.Stores s bytes := by
  obtain ⟨trees, inv⟩ := h.inv
  have file := inv.files s hs
  have room := file.room
  rw [← size_bytes, eq] at room
  have needed := file.tree.indexSectors_le
  refine ⟨eq, ?_⟩
  rw [file.mappedOf_eq] at data index ⊢
  have size : sectorSize = 512 := rfl
  have exactly : (trees s).data.length = dataSectors bytes.size := by
    refine Nat.le_antisymm data ?_
    unfold dataSectors
    rw [size]
    omega
  rw [exactly] at needed
  unfold totalSectors
  rw [exactly, Nat.le_antisymm index needed]

/-! ## Counting -/

/-- One inode more is accounted for, with all that its record lists. -/
theorem spare_add_of_erase {live : List SectorId} {handles handles' : Handles}
    (h : v.Serves total time ⟨[], live, [], handles⟩)
    (h' : v'.Serves total time ⟨[], live.erase s, [], handles'⟩) (hs : s ∈ live)
    (same : ∀ s' ∈ live.erase s, v'.mappedOf s' = v.mappedOf s') :
    v.spare total + ((v.mappedOf s).data.length + (v.mappedOf s).index.length + 1) =
      v'.spare total := by
  have counts := h.spare_add
  have counts' := h'.spare_add
  rw [length_holdings_erase hs handles handles' same] at counts
  omega

end Serves

end Volume

end SectorVolume
