import SectorVolume.Proofs.Volume.Nodes
import SectorVolume.Proofs.Volume.Ownership
import SectorVolume.Proofs.Volume.Pieces
import SectorVolume.Proofs.Volume.Strings

/-!
# The files of a volume

The record and the length of an inode are those of its node while it is open, and those in its
sector otherwise. `Volume.Inv` is the invariant of a volume with a client: all that the client holds
is taken once, the tree of every live inode is sound and covers its length, beyond the length there
are zeros, and the table leads to the nodes that are open.
-/

namespace SectorVolume

open SectorVolume.Action

namespace Volume

variable {v v' : Volume} {s : SectorId} {t t' : Tree} {id : NodeId}

/-- The record of an inode as it stands. -/
def recordOf (v : Volume) (s : SectorId) : Record :=
  match v.table.lookup s with
  | some id => (v.node id).record
  | none => Record.ofSector (v.space.storage.logical s)

/-- The number of bytes of a file. -/
def lengthOf (v : Volume) (s : SectorId) : Nat :=
  match v.table.lookup s with
  | some id => (v.node id).length
  | none => (Record.ofSector (v.space.storage.logical s)).length.toNat

/-- Whether an inode is a directory. -/
def kindOf (v : Volume) (s : SectorId) : Bool :=
  match v.table.lookup s with
  | some id => (v.node id).isDirectory
  | none => (Record.ofSector (v.space.storage.logical s)).isDirectory

/-- The sectors of an inode, as its record and its index blocks list them. -/
def mappedOf (v : Volume) (s : SectorId) : MappedSectors :=
  (v.recordOf s).mappedIn v.space.storage.logical

/-- The bytes of a file. -/
def bytes (v : Volume) (s : SectorId) : Bytes :=
  span (byteIn v.space.storage.logical (v.mappedOf s).data) 0 (v.lengthOf s)

theorem recordOf_of_some (h : v.table.lookup s = some id) : v.recordOf s = (v.node id).record := by
  unfold recordOf
  rw [h]

theorem recordOf_of_none (h : v.table.lookup s = none) :
    v.recordOf s = Record.ofSector (v.space.storage.logical s) := by
  unfold recordOf
  rw [h]

theorem lengthOf_of_some (h : v.table.lookup s = some id) : v.lengthOf s = (v.node id).length := by
  unfold lengthOf
  rw [h]

theorem lengthOf_of_none (h : v.table.lookup s = none) :
    v.lengthOf s = (Record.ofSector (v.space.storage.logical s)).length.toNat := by
  unfold lengthOf
  rw [h]

theorem kindOf_of_some (h : v.table.lookup s = some id) : v.kindOf s = (v.node id).isDirectory := by
  unfold kindOf
  rw [h]

theorem kindOf_of_none (h : v.table.lookup s = none) :
    v.kindOf s = (Record.ofSector (v.space.storage.logical s)).isDirectory := by
  unfold kindOf
  rw [h]

theorem size_bytes (v : Volume) (s : SectorId) : (v.bytes s).size = v.lengthOf s := size_span ..

/-- What the table, the node and the sector of an inode say about it is the same. -/
structure Alike (v v' : Volume) (s : SectorId) : Prop where
  record : v'.recordOf s = v.recordOf s
  length : v'.lengthOf s = v.lengthOf s
  kind : v'.kindOf s = v.kindOf s
  sector : v'.space.stock.content s = v.space.stock.content s

theorem alike_of_entry (entry : v'.table.lookup s = v.table.lookup s)
    (node : ∀ id, v.table.lookup s = some id → v'.node id = v.node id)
    (content : v'.space.stock.content s = v.space.stock.content s) : Alike v v' s := by
  have logical : v'.space.storage.logical s = v.space.storage.logical s := content
  cases e : v.table.lookup s with
  | some id =>
    refine ⟨?_, ?_, ?_, content⟩
    · rw [recordOf_of_some e, recordOf_of_some (entry.trans e), node id e]
    · rw [lengthOf_of_some e, lengthOf_of_some (entry.trans e), node id e]
    · rw [kindOf_of_some e, kindOf_of_some (entry.trans e), node id e]
  | none =>
    refine ⟨?_, ?_, ?_, content⟩
    · rw [recordOf_of_none e, recordOf_of_none (entry.trans e), logical]
    · rw [lengthOf_of_none e, lengthOf_of_none (entry.trans e), logical]
    · rw [kindOf_of_none e, kindOf_of_none (entry.trans e), logical]

/-- The sector of an inode holds its record as it stands, with the length up to date. -/
def Coherent (v : Volume) (s : SectorId) : Prop :=
  v.space.stock.content s = { v.recordOf s with length := UInt32.ofNat (v.lengthOf s) }.toSector

theorem coherent_of_some (h : v.table.lookup s = some id) :
    v.Coherent s ↔ v.space.stock.content s = (v.node id).currentRecord.toSector := by
  unfold Coherent Node.currentRecord
  rw [recordOf_of_some h, lengthOf_of_some h]

theorem coherent_of_none (h : v.table.lookup s = none) : v.Coherent s := by
  unfold Coherent
  rw [recordOf_of_none h, lengthOf_of_none h, UInt32.ofNat_toNat]
  exact (Record.toSector_ofSector _).symm

theorem Alike.coherent (h : Alike v v' s) (coherent : v.Coherent s) : v'.Coherent s := by
  unfold Coherent at coherent ⊢
  rw [h.sector, h.record, h.length, coherent]

/-- The record of an inode with its length up to date. -/
def currentOf (v : Volume) (s : SectorId) : Record :=
  { v.recordOf s with length := UInt32.ofNat (v.lengthOf s) }

theorem currentOf_of_none (h : v.table.lookup s = none) : v.currentOf s = v.recordOf s := by
  unfold currentOf
  rw [recordOf_of_none h, lengthOf_of_none h, UInt32.ofNat_toNat]

/-- To its users the file at `s` is in `v'` what it is in `v`. Whether its length was noted in the
record by now does not matter. -/
structure Matches (v v' : Volume) (s : SectorId) : Prop where
  bytes : v'.bytes s = v.bytes s
  mapped : v'.mappedOf s = v.mappedOf s
  record : v'.currentOf s = v.currentOf s

theorem Matches.trans {v'' : Volume} (h : Matches v v' s) (h' : Matches v' v'' s) : Matches v v'' s :=
  ⟨h'.bytes.trans h.bytes, h'.mapped.trans h.mapped, h'.record.trans h.record⟩

theorem Matches.length (h : Matches v v' s) : v'.lengthOf s = v.lengthOf s := by
  rw [← size_bytes, ← size_bytes, h.bytes]

variable [Promise]

/-- The file at `s` with the tree `t`. -/
structure File (v : Volume) (s : SectorId) (t : Tree) : Prop where
  record : t.record = v.recordOf s
  tree : t.Sound v.space.stock
  valid : t.record.isValid = true
  kind : v.kindOf s = t.record.isDirectory
  room : v.lengthOf s ≤ 512 * t.data.length
  zeros : ∀ i, v.lengthOf s ≤ i → byteIn v.space.stock.content t.data i = 0

theorem File.mappedOf_eq (f : v.File s t) : v.mappedOf s = ⟨t.data, t.blocks⟩ := by
  unfold mappedOf
  rw [← f.record]
  exact f.tree.mappedIn_eq

theorem File.bytes_eq (f : v.File s t) :
    v.bytes s = span (byteIn v.space.stock.content t.data) 0 (v.lengthOf s) := by
  unfold bytes
  rw [f.mappedOf_eq]
  rfl

/-- The bytes of a file are those of its tree, and beyond both there are zeros. -/
theorem File.getD_bytes (f : v.File s t) (i : Nat) :
    (v.bytes s).getD i 0 = byteIn v.space.stock.content t.data i := by
  rw [f.bytes_eq, Bytes.getD_span, Nat.zero_add]
  by_cases lt : i < v.lengthOf s
  · rw [if_pos lt]
  · rw [if_neg lt, f.zeros i (Nat.not_lt.1 lt)]

/-- Nothing that the file at `s` with the tree `t` depends on changed. -/
structure Untouched (v v' : Volume) (s : SectorId) (t : Tree) : Prop extends Alike v v' s where
  content : ∀ id ∈ t.sectors, v'.space.stock.content id = v.space.stock.content id
  held : ∀ id ∈ t.sectors, v'.space.stock.Held id

theorem File.untouched (f : v.File s t) (u : Untouched v v' s t) : v'.File s t := by
  refine ⟨f.record.trans u.record.symm, ⟨f.tree.maps.congr fun id hid =>
    u.content id (Tree.mem_sectors_blocks hid), f.tree.nodup, u.held⟩, f.valid,
    u.kind.trans f.kind, ?_, fun i hi => ?_⟩
  · rw [u.length]
    exact f.room
  · rw [u.length] at hi
    rw [byteIn_congr fun id hid => u.content id (Tree.mem_sectors_data hid)]
    exact f.zeros i hi

theorem File.matches_untouched (f : v.File s t) (u : Untouched v v' s t) : Matches v v' s := by
  refine ⟨?_, ?_, ?_⟩
  · rw [(f.untouched u).bytes_eq, f.bytes_eq, u.length]
    refine span_congr fun i _ _ => ?_
    exact byteIn_congr (fun id hid => u.content id (Tree.mem_sectors_data hid)) i
  · rw [(f.untouched u).mappedOf_eq, f.mappedOf_eq]
  · unfold currentOf
    rw [u.record, u.length]

/-! ## The invariant -/

/-- The table leads to the nodes that are open and to those that could not be given back, and to no
others. The handles lead to the nodes that are open. -/
structure Tabled (v : Volume) (c : Client) : Prop where
  entry : ∀ s id, v.table.lookup s = some id →
    (v.node id).sector = s ∧ id < v.nodes.size ∧
      (0 < (v.node id).opens ∧ s ∈ c.live ∨ (v.node id).opens = 0 ∧ s ∈ c.doomed)
  present : ∀ id, 0 < (v.node id).opens → v.table.lookup (v.node id).sector = some id
  doomed : ∀ s ∈ c.doomed, ∃ id, v.table.lookup s = some id
  handles : c.handles.Counts v.node

variable {c : Client}

/-- Node `id` is open and stands for the live inode at `s`. -/
structure Opened (v : Volume) (c : Client) (id : NodeId) (s : SectorId) : Prop where
  live : s ∈ c.live
  entry : v.table.lookup s = some id
  sector : (v.node id).sector = s
  inside : id < v.nodes.size
  opens : 0 < (v.node id).opens

omit [Promise] in
theorem Tabled.opened (h : v.Tabled c) (opens : 0 < (v.node id).opens) :
    v.Opened c id (v.node id).sector := by
  have entry := h.present id opens
  obtain ⟨sector, inside, state⟩ := h.entry _ id entry
  exact ⟨(state.resolve_right fun no => absurd no.1 (Nat.ne_of_gt opens)).2, entry, sector, inside,
    opens⟩

/-- The invariant of a volume with a client. -/
structure Inv (floor : Nat) (v : Volume) (c : Client) (trees : SectorId → Tree) : Prop where
  space : v.space.Sound
  owns : Owns v.space.stock floor c trees
  files : ∀ s ∈ c.live, v.File s (trees s)
  tabled : v.Tabled c
  bound : ∀ sb, v.superblock = some sb → v.space.stock.bound ≤ sb.totalSectors.toNat
  current : v.space.stock.failures = floor → ∀ s ∈ c.live, v.Coherent s
  undoomed : v.space.stock.failures = floor → c.doomed = []

variable {floor : Nat} {trees : SectorId → Tree}

namespace Inv

theorem opened (h : v.Inv floor c trees) (hid : id ∈ c.handles.ids) :
    v.Opened c id (v.node id).sector := h.tabled.opened (h.tabled.handles.opens_pos hid)

theorem held_inode (h : v.Inv floor c trees) (hs : s ∈ c.inodes) : v.space.stock.Held s :=
  h.owns.held s (Client.mem_sectors_inode hs)

/-- If no transfer failed until later, none failed until now. -/
theorem floor_eq (h : v.Inv floor c trees) {b : Stock} (follows : Stock.Follows v.space.stock b)
    (e : b.failures = floor) : v.space.stock.failures = floor :=
  Nat.le_antisymm (Nat.le_trans follows.failures (Nat.le_of_eq e)) h.owns.since

theorem floor_ne (h : v.Inv floor c trees) {b : Stock} (failed : v.space.stock.failures < b.failures) :
    b.failures ≠ floor := by
  have since := h.owns.since
  omega

/-- The sectors of a live inode. -/
theorem usable_file (h : v.Inv floor c trees) (hs : s ∈ c.live) {k : SectorId}
    (hk : k = s ∨ k ∈ (trees s).sectors) : v.space.stock.Usable k := by
  rcases hk with rfl | hk
  · exact (h.held_inode (Client.mem_inodes_live hs)).1
  · exact ((h.files s hs).tree.held k hk).1

/-- What is done to sectors that are not those of the file at `s` does not touch it. -/
theorem untouched (h : v.Inv floor c trees) (hs : s ∈ c.live) (alike : Alike v v' s)
    {X : SectorId → Prop} (spares : Stock.Spares X v.space.stock v'.space.stock)
    (hX : ∀ id ∈ (trees s).sectors, ¬ X id) : Untouched v v' s (trees s) :=
  ⟨alike, fun id hid => spares.content_held ((h.files s hs).tree.held id hid) (hX id hid),
    fun id hid => spares.held ((h.files s hs).tree.held id hid) (hX id hid)⟩

/-- The same when its entry in the table and its node are as before. -/
theorem untouched_of_entry (h : v.Inv floor c trees) (hs : s ∈ c.live)
    (entry : v'.table.lookup s = v.table.lookup s)
    (node : ∀ id, v.table.lookup s = some id → v'.node id = v.node id)
    {X : SectorId → Prop} (spares : Stock.Spares X v.space.stock v'.space.stock)
    (hX : ∀ id, id = s ∨ id ∈ (trees s).sectors → ¬ X id) : Untouched v v' s (trees s) := by
  have held := h.held_inode (Client.mem_inodes_live hs)
  exact h.untouched hs (alike_of_entry entry node (spares.content_held held (hX s (.inl rfl)))) spares
    fun id hid => hX id (.inr hid)

/-- The sectors of one live inode are not those of another. -/
theorem apart (h : v.Inv floor c trees) {s' : SectorId} (hs : s ∈ c.live) (hs' : s' ∈ c.live)
    (ne : s' ≠ s) : ∀ id, id = s' ∨ id ∈ (trees s').sectors → ¬ (id = s ∨ id ∈ (trees s).sectors) := by
  have nodup := h.owns.nodup
  rintro id (rfl | hid) (rfl | hid')
  · exact ne rfl
  · exact Client.not_mem_tree nodup hs (Client.mem_inodes_live hs') hid'
  · exact Client.not_mem_tree nodup hs' (Client.mem_inodes_live hs) hid
  · exact Client.disjoint_trees nodup hs hs' ne hid hid'

/-- The space changed without a change of what it offers. -/
theorem rests (h : v.Inv floor c trees) {sp : Space} (rests : v.space.Rests sp) :
    { v with space := sp }.Inv floor c trees := by
  have took : Stock.Took Stock.nowhere [] v.space.stock sp.stock := rests.took
  have untouched : ∀ s ∈ c.live, Untouched v { v with space := sp } s (trees s) := fun s hs =>
    h.untouched_of_entry hs rfl (fun _ _ => rfl) took.spares fun _ _ no => no
  refine ⟨rests.sound, h.owns.took h.space.usable took (by rw [List.append_nil]),
    fun s hs => (h.files s hs).untouched (untouched s hs),
    ⟨h.tabled.entry, h.tabled.present, h.tabled.doomed, h.tabled.handles⟩, fun sb e => ?_,
    fun e s hs => ?_, fun e => h.undoomed (h.floor_eq took.toFollows e)⟩
  · rw [took.bound]
    exact h.bound sb e
  · exact (untouched s hs).coherent (h.current (h.floor_eq took.toFollows e) s hs)

end Inv

theorem matches_of_rests {sp : Space} (rests : v.space.Rests sp) (s : SectorId) :
    Matches v { v with space := sp } s := by
  have content : sp.storage.logical = v.space.storage.logical := rests.content
  refine ⟨?_, ?_, ?_⟩
  · unfold bytes mappedOf recordOf lengthOf
    simp only [content]
    rfl
  · unfold mappedOf recordOf
    simp only [content]
    rfl
  · unfold currentOf recordOf lengthOf
    simp only [content]
    rfl

theorem bytes_of_rests {sp : Space} (rests : v.space.Rests sp) (s : SectorId) :
    { v with space := sp }.bytes s = v.bytes s := (matches_of_rests rests s).bytes

/-! ## Steps -/

/-- What nothing changes: the nodes of `v` stand for the same sectors in `v'`, the allocator and the
superblock are the same, and so are the sectors that nobody has. -/
structure Follows (v v' : Volume) : Prop where
  stock : Stock.Follows v.space.stock v'.space.stock
  superblock : v'.superblock = v.superblock
  outside : ∀ s, ¬ v.space.stock.own s → ¬ v.space.stock.Usable s →
    v'.space.stock.content s = v.space.stock.content s
  size : v.nodes.size ≤ v'.nodes.size
  sector : ∀ id, id < v.nodes.size → (v'.node id).sector = (v.node id).sector

variable {X : SectorId → Prop}

theorem Follows.trans {v'' : Volume} (h : v.Follows v') (h' : v'.Follows v'') : v.Follows v'' := by
  refine ⟨h.stock.trans h'.stock, h'.superblock.trans h.superblock, fun s own unusable => ?_,
    Nat.le_trans h.size h'.size, fun id lt =>
      (h'.sector id (Nat.lt_of_lt_of_le lt h.size)).trans (h.sector id lt)⟩
  rw [h'.outside s (by rwa [h.stock.own]) fun usable => unusable (h.stock.usable.1 usable),
    h.outside s own unusable]

theorem follows_space (h : v.space.Sound) {sp : Space}
    (spares : Stock.Spares X v.space.stock sp.stock) (hX : ∀ s, X s → v.space.stock.Usable s) :
    v.Follows { v with space := sp } :=
  ⟨spares.toFollows, rfl, fun _ => spares.outside h.usable hX, Nat.le_refl _, fun _ _ => rfl⟩

theorem follows_nodes (id : NodeId) (h : v.space.Sound)
    (spares : Stock.Spares X v.space.stock v'.space.stock) (hX : ∀ s, X s → v.space.stock.Usable s)
    (superblock : v'.superblock = v.superblock) (size : v'.nodes.size = v.nodes.size)
    (others : ∀ j, j ≠ id → v'.node j = v.node j)
    (sector : (v'.node id).sector = (v.node id).sector) : v.Follows v' := by
  refine ⟨spares.toFollows, superblock, fun _ => spares.outside h.usable hX, Nat.le_of_eq size.symm,
    fun j _ => ?_⟩
  by_cases e : j = id
  · rw [e, sector]
  · rw [others j e]

/-- From `v` to `v'` no file of a live inode changed that is not in `X`, and `c'` holds now what `c`
held before. The nodes of inodes that could not be given back are those that there were. -/
structure Keeps (floor : Nat) (v : Volume) (c : Client) (X : SectorId → Prop) (v' : Volume)
    (c' : Client) : Prop where
  inv : ∃ trees, v'.Inv floor c' trees
  follows : v.Follows v'
  same : ∀ s ∈ c.live, ¬ X s → Matches v v' s
  doomed : ∀ s ∈ c'.doomed, v'.table.lookup s = v.table.lookup s

/-- Sectors that are free before and afterwards were at most cleared, those in `D` apart. Nothing
was written to sectors that wait for an inode. -/
structure Spared (v : Volume) (c : Client) (D : SectorId → Prop) (v' : Volume) (c' : Client) :
    Prop where
  idle : ∀ k, v.space.stock.free k → v'.space.stock.free k → ¬ D k →
    Stock.Dormant v.space.stock v'.space.stock k
  blank : ∀ k ∈ c.blank, k ∈ c'.blank → v'.space.stock.content k = v.space.stock.content k

/-- Beside the live inodes in `X` and what they take nothing changed, and `c'` holds now what `c`
held before. -/
structure Leads (floor : Nat) (v : Volume) (c : Client) (X : SectorId → Prop) (v' : Volume)
    (c' : Client) : Prop extends Keeps floor v c X v' c' where
  spared : v.Spared c Stock.nowhere v' c'

variable {c' c'' : Client} {Y : SectorId → Prop}

theorem Keeps.bytes (h : v.Keeps floor c X v' c') (s : SectorId) (hs : s ∈ c.live) (hX : ¬ X s) :
    v'.bytes s = v.bytes s := (h.same s hs hX).bytes

theorem Keeps.weaken (h : v.Keeps floor c X v' c') (hX : ∀ s, X s → Y s) : v.Keeps floor c Y v' c' :=
  ⟨h.inv, h.follows, fun s hs notin => h.same s hs fun hs' => notin (hX s hs'), h.doomed⟩

omit [Promise] in
theorem Spared.mono (h : v.Spared c Stock.nowhere v' c') : v.Spared c X v' c' :=
  ⟨fun k free free' _ => h.idle k free free' id, h.blank⟩

/-- The file of no inode changed. -/
theorem Leads.nowhere (h : v.Leads floor c X v' c') (same : ∀ s, X s → Matches v v' s) :
    v.Leads floor c Stock.nowhere v' c' :=
  ⟨⟨h.inv, h.follows, fun s hs _ => (Classical.em (X s)).elim (same s) (h.same s hs), h.doomed⟩,
    h.spared⟩

theorem Leads.weaken (h : v.Leads floor c X v' c') (hX : ∀ s, X s → Y s) : v.Leads floor c Y v' c' :=
  ⟨h.toKeeps.weaken hX, h.spared⟩

theorem Leads.mono (h : v.Leads floor c Stock.nowhere v' c') : v.Leads floor c X v' c' :=
  h.weaken fun _ no => no.elim

namespace Inv

theorem not_live_of_blank (h : v.Inv floor c trees) (hs : s ∈ c.blank) : s ∉ c.live ∧ s ∉ c.doomed := by
  have nodup : (c.blank ++ c.doomed ++ c.live).Nodup := h.owns.nodup.of_append_left
  refine ⟨fun hs' => ?_, fun hs' => ?_⟩
  · exact List.disjoint_of_nodup_append nodup (List.mem_append_left _ hs) hs'
  · exact List.disjoint_of_nodup_append nodup.of_append_left hs hs'

/-- What is done to sectors that are taken, but do not wait for an inode, spares the others. -/
theorem spared (h : v.Inv floor c trees) (spares : Stock.Spares X v.space.stock v'.space.stock)
    (taken : ∀ k, X k → v.space.stock.free k → Y k) (created : ∀ k ∈ c.blank, k ∈ c'.blank → ¬ X k) :
    v.Spared c Y v' c' := by
  refine ⟨fun k free free' notin => ?_, fun k hk hk' => ?_⟩
  · exact spares.idle k free' (h.space.usable k free).2.1 fun hX => notin (taken k hX free)
  · exact spares.content_held (h.held_inode (Client.mem_inodes_blank hk)) (created k hk hk')

theorem spared_nowhere (h : v.Inv floor c trees)
    (spares : Stock.Spares Stock.nowhere v.space.stock v'.space.stock) : v.Spared c Y v' c' :=
  h.spared spares (fun _ no => no.elim) fun _ _ _ => id

/-- The sectors of a live inode are taken, and none of them waits for an inode. -/
theorem spared_file (h : v.Inv floor c trees) (hs : s ∈ c.live)
    (spares : Stock.Spares (fun k => k = s ∨ k ∈ (trees s).sectors) v.space.stock v'.space.stock) :
    v.Spared c Y v' c' := by
  refine h.spared spares (fun k hk free => ?_) fun k blank _ hk => ?_
  · rcases hk with rfl | hk
    · exact absurd free (h.held_inode (Client.mem_inodes_live hs)).2
    · exact absurd free ((h.files s hs).tree.held k hk).2
  · rcases hk with rfl | hk
    · exact (h.not_live_of_blank blank).1 hs
    · exact Client.not_mem_tree h.owns.nodup hs (Client.mem_inodes_blank blank) hk

theorem leads_rests (h : v.Inv floor c trees) {sp : Space} (rests : v.space.Rests sp) :
    v.Leads floor c Stock.nowhere { v with space := sp } c :=
  have spares := (Space.Rests.took rests (X := Stock.nowhere)).spares
  ⟨⟨⟨trees, h.rests rests⟩, follows_space h.space spares fun _ no => no.elim,
    fun s _ _ => matches_of_rests rests s, fun _ _ => rfl⟩, h.spared_nowhere spares⟩

end Inv

omit [Promise] in
/-- What is done before and after a step without changing what there is to have. -/
theorem Spared.of_eq {w w' : Volume} (h : w.Spared c X w' c')
    (free : ∀ k, v.space.stock.free k → w.space.stock.free k)
    (content : w.space.stock.content = v.space.stock.content)
    (free' : ∀ k, v'.space.stock.free k → w'.space.stock.free k)
    (content' : v'.space.stock.content = w'.space.stock.content) : v.Spared c X v' c' := by
  refine ⟨fun k hk hk' notin => ?_, fun k hk hk' => ?_⟩
  · have dormant := h.idle k (free k hk) (free' k hk') notin
    unfold Stock.Dormant at dormant ⊢
    rwa [content', ← content]
  · rw [content', ← content]
    exact h.blank k hk hk'

theorem Leads.rests (h : v.Leads floor c X v' c') {sp : Space} (rests : v'.space.Rests sp) :
    v.Leads floor c X { v' with space := sp } c' := by
  obtain ⟨_, inv⟩ := h.inv
  have took : Stock.Took Stock.nowhere [] v'.space.stock sp.stock := rests.took
  refine ⟨⟨⟨_, inv.rests rests⟩, h.follows.trans (inv.leads_rests rests).follows,
    fun s hs hX => (h.same s hs hX).trans (matches_of_rests rests s), h.doomed⟩, ?_⟩
  exact h.spared.of_eq (fun _ free => free) rfl (fun k free => (took.left k free).1) rests.content

/-- Before a step the space changed without a change of what it offers. -/
theorem Inv.rests_leads (h : v.Inv floor c trees) {sp : Space} (rests : v.space.Rests sp)
    (h' : { v with space := sp }.Leads floor c X v' c') : v.Leads floor c X v' c' := by
  refine ⟨⟨h'.inv, (h.leads_rests rests).follows.trans h'.follows,
    fun s hs hX => (matches_of_rests rests s).trans (h'.same s hs hX), h'.doomed⟩, ?_⟩
  exact h'.spared.of_eq (Space.Rests.gave rests).kept rests.content (fun _ free => free) rfl

namespace Inv

/-- The live inode at `s`, whose node is `id`, is changed and takes sectors. The client may get
handles of it and give them up. -/
theorem change (h : v.Inv floor c trees) (opened : v.Opened c id s) {f : Node → Node} {sp : Space}
    (sound : sp.Sound) {ids : List SectorId}
    (took : Stock.Took (fun id => id = s ∨ id ∈ (trees s).sectors) ids v.space.stock sp.stock)
    (perm : t.sectors.Perm ((trees s).sectors ++ ids))
    (file : (v.revised id f sp).File s t) {handles : Handles}
    (sector : (f (v.node id)).sector = (v.node id).sector) (opens : 0 < (f (v.node id)).opens)
    (counts : handles.Counts fun j => if j = id then f (v.node id) else v.node j)
    (current : sp.stock.failures = floor → (v.revised id f sp).Coherent s) :
    v.Leads floor c (· = s) (v.revised id f sp) { c with handles } := by
  have node : ∀ j, (v.revised id f sp).node j =
      if j = id then f (v.node id) else v.node j := node_withNode opened.inside f
  have others : ∀ s' ∈ c.live, s' ≠ s →
      Untouched v (v.revised id f sp) s' (trees s') := by
    intro s' hs' ne
    refine h.untouched_of_entry hs' rfl (fun j e => ?_) took.spares (h.apart opened.live hs' ne)
    have other : j ≠ id := by
      rintro rfl
      exact ne ((h.tabled.entry s' j e).1.symm.trans opened.sector)
    rw [node, if_neg other]
  refine ⟨⟨⟨Function.update trees s t, sound, ?_, fun s' hs' => ?_,
    ⟨fun s' j e => ?_, fun j opens' => ?_, h.tabled.doomed, ?_⟩, fun sb e => ?_, fun e s' hs' => ?_,
    fun e => h.undoomed (h.floor_eq took.toFollows e)⟩,
    follows_nodes id h.space took.spares (fun _ => h.usable_file opened.live) rfl (size_withNode ..)
      (fun j ne => (node j).trans (if_neg ne)) (by rw [node, if_pos rfl, sector]),
    fun s' hs' ne => (h.files s' hs').matches_untouched (others s' hs' ne), fun _ _ => rfl⟩,
    h.spared_file opened.live took.spares⟩
  · exact h.owns.took h.space.usable took
      (Client.sectors_update h.owns.nodup_live opened.live perm)
  · by_cases e : s' = s
    · subst e
      rw [Function.update_self]
      exact file
    · rw [Function.update_of_ne e]
      exact (h.files s' hs').untouched (others s' hs' e)
  · have entry := h.tabled.entry s' j e
    have inside : j < (v.revised id f sp).nodes.size :=
      (size_withNode ..).symm ▸ entry.2.1
    rw [node]
    by_cases e' : j = id
    · subst e'
      rw [if_pos rfl, sector]
      have here : s' = s := entry.1.symm.trans opened.sector
      exact ⟨entry.1, inside, .inl ⟨opens, here ▸ opened.live⟩⟩
    · rw [if_neg e']
      exact ⟨entry.1, inside, entry.2.2⟩
  · rw [node] at opens' ⊢
    by_cases e' : j = id
    · subst e'
      rw [if_pos rfl, sector]
      exact h.tabled.present j opened.opens
    · rw [if_neg e'] at opens' ⊢
      exact h.tabled.present j opens'
  · rw [funext node]
    exact counts
  · exact Nat.le_trans (Nat.le_of_eq took.bound) (h.bound sb e)
  · by_cases e' : s' = s
    · subst e'
      exact current e
    · exact (others s' hs' e').coherent (h.current (h.floor_eq took.toFollows e) s' hs')

end Inv

end Volume

end SectorVolume
