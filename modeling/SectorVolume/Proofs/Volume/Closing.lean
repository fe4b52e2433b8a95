import SectorVolume.Proofs.Cache.Flushing
import SectorVolume.Proofs.Volume.Opening

/-!
# Closing inodes

A close gives up one handle. After the last close the node leaves the table, and its record is read
from its sector again. If the inode was removed its sectors are given back, at last the one of the
record. When that is stopped by the disk the node stays behind with a sector that remains taken.
-/

namespace SectorVolume

open SectorVolume.Action

namespace Volume

variable {v v' : Volume} {s : SectorId} {t : Tree} {id : NodeId} {c c' : Client}
  {floor : Nat} {trees : SectorId → Tree}

/-! ## Without a node -/

variable [Promise] in
/-- A file whose node is gone, and whose record stands in its sector with the length up to date, is
the file that it was. -/
theorem File.closed (f : v.File s t) (absent : v'.table.lookup s = none)
    (record : v'.space.stock.content s =
      { v.recordOf s with length := UInt32.ofNat (v.lengthOf s) }.toSector)
    (content : ∀ id ∈ t.sectors, v'.space.stock.content id = v.space.stock.content id)
    (held : ∀ id ∈ t.sectors, v'.space.stock.Held id) :
    v'.File s (t.withLength (UInt32.ofNat (v.lengthOf s))) ∧ v'.lengthOf s = v.lengthOf s ∧
      v'.kindOf s = v.kindOf s ∧ Matches v v' s := by
  replace record : v'.space.storage.logical s = _ := record
  have recordOf : v'.recordOf s = { v.recordOf s with length := UInt32.ofNat (v.lengthOf s) } := by
    rw [recordOf_of_none absent, record, Record.ofSector_toSector]
  have lengthOf : v'.lengthOf s = v.lengthOf s := by
    have room := f.room
    have few := f.tree.data_length_le
    have words : UInt32.size = 4294967296 := rfl
    rw [lengthOf_of_none absent, record, Record.ofSector_toSector]
    exact UInt32.toNat_ofNat_of_lt' (by omega)
  have kindOf : v'.kindOf s = v.kindOf s := by
    rw [kindOf_of_none absent, record, Record.ofSector_toSector, f.kind, f.record]
    rfl
  have same : ∀ i, byteIn v'.space.stock.content t.data i = byteIn v.space.stock.content t.data i :=
    byteIn_congr fun id hid => content id (Tree.mem_sectors_data hid)
  have sound : t.Sound v'.space.stock :=
    ⟨f.tree.maps.congr fun id hid => content id (Tree.mem_sectors_blocks hid), f.tree.nodup, held⟩
  have file : v'.File s (t.withLength (UInt32.ofNat (v.lengthOf s))) := by
    refine ⟨?_, sound.withLength _, f.valid, kindOf.trans f.kind, ?_, fun i hi => ?_⟩
    · rw [recordOf, ← f.record]
      rfl
    · rw [lengthOf]
      exact f.room
    · rw [lengthOf] at hi
      exact (same i).trans (f.zeros i hi)
  refine ⟨file, lengthOf, kindOf, Bytes.ext_getD ?_ fun i => ?_, ?_, ?_⟩
  · rw [size_bytes, size_bytes, lengthOf]
  · exact (file.getD_bytes i).trans ((same i).trans (f.getD_bytes i).symm)
  · exact file.mappedOf_eq.trans f.mappedOf_eq.symm
  · unfold currentOf
    rw [lengthOf, recordOf]

/-! ## The table -/

/-- After a last close the table changes at the sector of the inode only. -/
theorem Tabled.last (h : v.Tabled c) (o : v.Opened c id s) (hid : id ∈ c.handles.ids)
    (last : (v.node id).opens ≤ 1) (size : v'.nodes.size = v.nodes.size)
    (node : ∀ j, j ≠ id → v'.node j = v.node j) (gone : (v'.node id).opens = 0)
    (removed : (v'.node id).removed = (v.node id).removed)
    (others : ∀ s', s' ≠ s → v'.table.lookup s' = v.table.lookup s')
    (live : ∀ s' ∈ c.live, s' ≠ s → s' ∈ c'.live) (doomed : ∀ s' ∈ c.doomed, s' ∈ c'.doomed)
    (stuck : ∀ s' ∈ c'.doomed, s' ∈ c.doomed ∧ s' ≠ s ∨ ∃ j, v'.table.lookup s' = some j)
    (handles : c'.handles = (c.drop id).handles)
    (here : ∀ j, v'.table.lookup s = some j →
      (v'.node j).sector = s ∧ j < v'.nodes.size ∧
        (0 < (v'.node j).opens ∧ s ∈ c'.live ∨ (v'.node j).opens = 0 ∧ s ∈ c'.doomed)) :
    v'.Tabled c' := by
  refine ⟨fun s' j e => ?_, fun j opens => ?_, fun s' hs' => ?_, ?_⟩
  · by_cases same : s' = s
    · subst same
      exact here j e
    · rw [others s' same] at e
      obtain ⟨sector, inside, state⟩ := h.entry s' j e
      have other : j ≠ id := fun e' => same (sector.symm.trans (e' ▸ o.sector))
      rw [node j other, size]
      exact ⟨sector, inside, state.imp (fun l => ⟨l.1, live s' l.2 same⟩)
        fun d => ⟨d.1, doomed s' d.2⟩⟩
  · have other : j ≠ id := by
      rintro rfl
      omega
    rw [node j other] at opens ⊢
    have entry := h.present j opens
    rw [others _ fun e => other ?_]
    · exact entry
    · rw [e, o.entry] at entry
      exact (Option.some.inj entry).symm
  · rcases stuck s' hs' with ⟨old, ne⟩ | entry
    · rw [others s' ne]
      exact h.doomed s' old
    · exact entry
  · have nodes : v'.node = fun j => if j = id then v'.node id else v.node j := by
      funext j
      by_cases e : j = id
      · rw [if_pos e, e]
      · rw [if_neg e, node j e]
    rw [nodes, handles]
    exact h.handles.drop hid (by omega) removed

/-- After a handle was given up, the inode is dead if it is removed and that was the only one. -/
theorem Tabled.dead_iff (h : v.Tabled c) (hid : id ∈ c.handles.ids) :
    (c.drop id).handles.Dead id ↔ (v.node id).opens ≤ 1 ∧ (v.node id).removed = true := by
  have counts := h.handles.drop hid (n := { v.node id with opens := (v.node id).opens - 1 }) rfl rfl
  have dead := counts.dead_iff id
  simp only [if_true] at dead
  rw [Nat.sub_eq_zero_iff_le] at dead
  exact dead

variable [Promise]

/-! ## The last close of an inode that stays -/

/-- The node at `s` leaves the table after its record was written. -/
theorem Inv.leave (h : v.Inv floor c trees) (o : v.Opened c id s) (hid : id ∈ c.handles.ids)
    (last : (v.node id).opens ≤ 1) {sp : Space} (sound : sp.Sound)
    (took : Stock.Took (· = s) [] v.space.stock sp.stock)
    (record : sp.stock.content s = (v.node id).currentRecord.toSector) {f : Node → Node}
    (sector : (f (v.node id)).sector = (v.node id).sector) (gone : (f (v.node id)).opens = 0)
    (removed : (f (v.node id)).removed = (v.node id).removed) :
    v.Leads floor c Stock.nowhere { v.revised id f sp with table := v.table.erase s }
      (c.drop id) := by
  obtain ⟨v', e⟩ : ∃ v', v' = { v.revised id f sp with table := v.table.erase s } := ⟨_, rfl⟩
  rw [← e]
  have node : ∀ j, v'.node j = if j = id then f (v.node id) else v.node j := by
    rw [e]
    exact node_revised o.inside f sp
  have lookup : ∀ s', v'.table.lookup s' = if s' = s then none else v.table.lookup s' := by
    intro s'
    rw [e]
    exact OpenTable.lookup_erase s s' v.table
  have space : v'.space = sp := by rw [e]; rfl
  have size : v'.nodes.size = v.nodes.size := by rw [e]; exact size_withNode v id f
  have superblock : v'.superblock = v.superblock := by rw [e]; rfl
  have here : v'.table.lookup s = none := (lookup s).trans (if_pos rfl)
  rw [← space] at sound took record
  have file := h.files s o.live
  have spared : ∀ id ∈ (trees s).sectors, id ≠ s := fun id hid e =>
    Client.not_mem_tree h.owns.nodup o.live (Client.mem_inodes_live o.live) (e ▸ hid)
  obtain ⟨file', -, -, matched⟩ := file.closed here
    (by rw [record, recordOf_of_some o.entry, lengthOf_of_some o.entry]; rfl)
    (fun id hid => took.content (file.tree.held id hid) (spared id hid))
    (fun id hid => took.held (file.tree.held id hid))
  have dead : ∀ s' ∈ (c.drop id).doomed, s' ≠ s :=
    fun s' hs' e => h.not_live_of_doomed hs' (e ▸ o.live)
  have others : ∀ s' ∈ c.live, s' ≠ s → Untouched v v' s' (trees s') := by
    intro s' hs' ne
    refine h.untouched_of_entry hs' ((lookup s').trans (if_neg ne)) (fun j e' => ?_) took.spares ?_
    · have other : j ≠ id := by
        rintro rfl
        exact ne ((h.tabled.entry s' j e').1.symm.trans o.sector)
      rw [node, if_neg other]
    · exact fun id hid e => h.apart o.live hs' ne id hid (.inl e)
  refine ⟨⟨⟨Function.update trees s ((trees s).withLength (UInt32.ofNat (v.lengthOf s))), sound,
    ?_, fun s' hs' => ?_, ?_, fun sb hsb => ?_, fun e s' hs' => ?_,
    fun e => h.undoomed (h.floor_eq took.toFollows e)⟩,
    follows_nodes id h.space took.spares (fun _ e => h.usable_file o.live (.inl e)) superblock size
    (fun j ne => (node j).trans (if_neg ne)) (by rw [node, if_pos rfl, sector]), fun s' hs' _ => ?_,
    fun s' hs' => (lookup s').trans (if_neg (dead s' hs'))⟩,
    h.spared_file o.live (took.spares.mono fun _ => .inl)⟩
  · refine h.owns.took h.space.usable took ?_
    exact Client.sectors_update (t := (trees s).withLength _) h.owns.nodup_live o.live
      (by rw [List.append_nil]; exact .refl _)
  · by_cases e' : s' = s
    · subst e'
      rw [Function.update_self]
      exact file'
    · rw [Function.update_of_ne e']
      exact (h.files s' hs').untouched (others s' hs' e')
  · refine h.tabled.last o hid last size (fun j ne => (node j).trans (if_neg ne)) ?_ ?_
      (fun s' ne => (lookup s').trans (if_neg ne)) (fun _ hs' _ => hs') (fun _ hs' => hs')
      (fun s' hs' => .inl ⟨hs', dead s' hs'⟩) rfl fun j e' => ?_
    · rw [node, if_pos rfl]
      exact gone
    · rw [node, if_pos rfl]
      exact removed
    · rw [here] at e'
      cases e'
  · rw [superblock] at hsb
    exact Nat.le_trans (Nat.le_of_eq took.bound) (h.bound sb hsb)
  · by_cases e' : s' = s
    · rw [e']
      exact coherent_of_none here
    · exact (others s' hs' e').coherent (h.current (h.floor_eq took.toFollows e) s' hs')
  · by_cases e' : s' = s
    · rw [e']
      exact matched
    · exact (h.files s' hs').matches_untouched (others s' hs' e')

/-! ## The last close of a removed inode -/

/-- While the removed inode at `s` is dissolved, nothing else changes. The client has by then what
`c'` holds. -/
structure Sheds (floor : Nat) (v : Volume) (trees : SectorId → Tree) (id : NodeId) (s : SectorId)
    (v' : Volume) (c' : Client) : Prop where
  sound : v'.space.Sound
  owns : Owns v'.space.stock floor c' trees
  spares : Stock.Spares (fun k => k = s ∨ k ∈ (trees s).sectors) v.space.stock v'.space.stock
  table : v'.table = v.table
  superblock : v'.superblock = v.superblock
  size : v'.nodes.size = v.nodes.size
  others : ∀ j, j ≠ id → v'.node j = v.node j
  sector : (v'.node id).sector = s
  gone : (v'.node id).opens = 0
  removed : (v'.node id).removed = true

/-- A step of the dissolution that only concerns the space. -/
theorem Sheds.step (h : Sheds floor v trees id s v' c) {sp : Space} (sound : sp.Sound)
    (owns : Owns sp.stock floor c' trees)
    (spares : Stock.Spares (fun k => k = s ∨ k ∈ (trees s).sectors) v'.space.stock sp.stock) :
    Sheds floor v trees id s { v' with space := sp } c' :=
  ⟨sound, owns, h.spares.trans spares, h.table, h.superblock, h.size, h.others, h.sector, h.gone,
    h.removed⟩

theorem Sheds.rests (h : Sheds floor v trees id s v' c) {sp : Space} (rests : v'.space.Rests sp) :
    Sheds floor v trees id s { v' with space := sp } c := by
  have took : Stock.Took Stock.nowhere [] v'.space.stock sp.stock := rests.took
  exact h.step rests.sound (h.owns.took h.sound.usable took (by rw [List.append_nil]))
    (took.spares.mono fun _ no => no.elim)

/-- The sectors below the record are given back. -/
theorem Sheds.below (h : Sheds floor v trees id s v' c) (hs : s ∈ c.live) (hid : id < v'.nodes.size)
    {sp : Space} (sound : sp.Sound) (gave : Stock.Gave (trees s).sectors v'.space.stock sp.stock)
    (r : Record) :
    Sheds floor v trees id s (v'.revised id (fun n => { n with record := r }) sp) (c.doom s) := by
  have node := fun j => node_revised hid (fun n => { n with record := r }) sp j
  have here := (node id).trans (if_pos rfl)
  refine ⟨sound, h.owns.gave gave (Client.sectors_doom hs),
    h.spares.trans (gave.spares.mono fun _ hk => .inr hk), h.table, h.superblock,
    (size_withNode ..).trans h.size, fun j ne => ?_, ?_, ?_, ?_⟩
  · rw [node, if_neg ne, h.others j ne]
  · rw [here]
    exact h.sector
  · rw [here]
    exact h.gone
  · rw [here]
    exact h.removed

namespace Inv

/-- A dissolved inode is dead, and the others live on. The table may have lost its entry, or else
its sector is still taken. -/
theorem dismiss (h : v.Inv floor c trees) (o : v.Opened c id s) (hid : id ∈ c.handles.ids)
    (last : (v.node id).opens ≤ 1) (removed : (v.node id).removed = true)
    (sheds : Sheds floor v trees id s v' c')
    (live : c'.live = c.live.erase s) (doomed : ∀ s' ∈ c.doomed, s' ∈ c'.doomed)
    (handles : c'.handles = (c.drop id).handles) (table : OpenTable)
    (stuck : ∀ s' ∈ c'.doomed, s' ∈ c.doomed ∨ s' = s ∧ table.lookup s = some id)
    (undoomed : v'.space.stock.failures = floor → c'.doomed = [])
    (same : ∀ s', s' ≠ s → table.lookup s' = v.table.lookup s')
    (here : ∀ j, table.lookup s = some j → j = id ∧ s ∈ c'.doomed) :
    v.Leads floor c (· = s) { v' with table } c' := by
  have follows : v.Follows { v' with table } := follows_nodes id h.space sheds.spares
    (fun _ => h.usable_file o.live) sheds.superblock sheds.size sheds.others
    (sheds.sector.trans o.sector.symm)
  have alive : ∀ s', s' ∈ c'.live ↔ s' ≠ s ∧ s' ∈ c.live := fun s' => by
    rw [live]
    exact h.owns.nodup_live.mem_erase_iff
  have others : ∀ s' ∈ c.live, s' ≠ s → Untouched v { v' with table } s' (trees s') := by
    intro s' hs' ne
    refine h.untouched_of_entry hs' (same s' ne) (fun j e => ?_) sheds.spares ?_
    · have other : j ≠ id := by
        rintro rfl
        exact ne ((h.tabled.entry s' j e).1.symm.trans o.sector)
      exact sheds.others j other
    · exact h.apart o.live hs' ne
  refine ⟨⟨⟨trees, sheds.sound, sheds.owns, fun s' hs' => ?_, ?_, fun sb hsb => ?_,
      fun e s' hs' => ?_, undoomed⟩, follows,
      fun s' hs' ne => (h.files s' hs').matches_untouched (others s' hs' ne),
      fun s' hs' => ?_⟩, h.spared_file o.live sheds.spares⟩
  · obtain ⟨ne, hs'⟩ := (alive s').1 hs'
    exact (h.files s' hs').untouched (others s' hs' ne)
  · refine h.tabled.last o hid last sheds.size sheds.others sheds.gone
      (sheds.removed.trans removed.symm) same
      (fun s' hs' ne => (alive s').2 ⟨ne, hs'⟩) doomed (fun s' hs' => ?_) handles fun j e => ?_
    · rcases stuck s' hs' with old | ⟨rfl, entry⟩
      · exact .inl ⟨old, fun e => h.not_live_of_doomed old (e ▸ o.live)⟩
      · exact .inr ⟨_, entry⟩
    obtain ⟨rfl, taken⟩ := here j e
    exact ⟨sheds.sector, sheds.size.symm ▸ o.inside, .inr ⟨sheds.gone, taken⟩⟩
  · have hsb : v.superblock = some sb := sheds.superblock.symm.trans hsb
    exact Nat.le_trans (Nat.le_of_eq sheds.spares.bound) (h.bound sb hsb)
  · obtain ⟨ne, hs'⟩ := (alive s').1 hs'
    exact (others s' hs' ne).coherent (h.current (h.floor_eq sheds.spares.toFollows e) s' hs')
  · rcases stuck s' hs' with old | ⟨rfl, entry⟩
    · exact same s' fun e => h.not_live_of_doomed old (e ▸ o.live)
    · exact entry.trans o.entry.symm

/-- All sectors were given back. -/
theorem lose (h : v.Inv floor c trees) (o : v.Opened c id s) (hid : id ∈ c.handles.ids)
    (last : (v.node id).opens ≤ 1) (removed : (v.node id).removed = true)
    (sheds : Sheds floor v trees id s v' ((c.drop id).lose s)) :
    v.Leads floor c (· = s) { v' with table := v'.table.erase s } ((c.drop id).lose s) := by
  refine h.dismiss o hid last removed sheds rfl (fun _ hs' => hs') rfl _ (fun _ => .inl)
    (fun e => h.undoomed (h.floor_eq sheds.spares.toFollows e)) (fun s' ne => ?_) fun j e => ?_
  · rw [OpenTable.lookup_erase, if_neg ne, sheds.table]
  · rw [OpenTable.lookup_erase, if_pos rfl] at e
    cases e

/-- Not all sectors were given back. -/
theorem doom (h : v.Inv floor c trees) (o : v.Opened c id s) (hid : id ∈ c.handles.ids)
    (last : (v.node id).opens ≤ 1) (removed : (v.node id).removed = true)
    (sheds : Sheds floor v trees id s v' ((c.drop id).doom s))
    (failed : v.space.stock.failures < v'.space.stock.failures) :
    v.Leads floor c (· = s) v' ((c.drop id).doom s) := by
  refine h.dismiss o hid last removed sheds rfl (fun _ hs' => List.mem_cons_of_mem _ hs') rfl v'.table
    (fun s' hs' => ?_) (fun e => absurd e (h.floor_ne failed)) (fun s' _ => by rw [sheds.table])
    fun j e => ?_
  · exact (List.mem_cons.1 hs').symm.imp_right fun e => ⟨e, by rw [sheds.table, o.entry]⟩
  rw [sheds.table, o.entry] at e
  exact ⟨(Option.some.inj e).symm, List.mem_cons_self⟩

end Inv

/-- The sector of an inode was given back, and there is no record in it. -/
structure Vacated (v : Volume) (s : SectorId) : Prop where
  free : v.space.stock.free s
  zero : v.space.stock.content s = Sector.zero

/-- All sectors of a removed inode are given back, unless the disk fails. -/
theorem meets_releaseNode (sheds : Sheds floor v trees id s v' c) (hs : s ∈ c.live)
    (hid : id < v'.nodes.size) (m : Mapping.Sound ⟨v'.space, (v'.node id).record⟩ t)
    (same : t.sectors = (trees s).sectors)
    (enough : dataSectors (v'.node id).record.length.toNat ≤ t.data.length) :
    Meets (releaseNode id) v'
      (fun _ v'' => Sheds floor v trees id s v'' (c.lose s) ∧ v''.Vacated s)
      (fun e v'' => Sheds floor v trees id s v'' (c.doom s) ∧
        Stock.Broke v'.space.stock v''.space.stock e) := by
  unfold releaseNode
  refine (meets_onRecord (Mapping.meets_release m enough)).bind (fun freed v₁ h₁ => ?_)
    fun e v₁ h₁ => ?_
  · obtain ⟨m₁, ⟨-, sound₁, gave, -⟩, e₁⟩ := h₁
    have sheds₁ := sheds.below hs hid sound₁ (same ▸ gave) m₁.record
    rw [← e₁] at sheds₁
    have space₁ : v₁.space = m₁.space := by rw [e₁]; rfl
    replace gave := gave.failures
    rw [← space₁] at gave
    have held : v₁.space.stock.Held s := sheds₁.owns.held s
      (Client.mem_sectors_inode (Client.mem_inodes_doomed List.mem_cons_self))
    refine meets_getNode ?_
    rw [sheds₁.sector]
    refine (meets_onSpace (Space.meets_writeZeros sheds₁.sound held.1)).bind (fun _ v₂ h₂ => ?_)
      fun e v₂ h₂ => ?_
    · obtain ⟨zeroed, e₂⟩ := h₂
      have took : Stock.Took (· = s) [] v₁.space.stock v₂.space.stock := zeroed.took_put rfl
      have sheds₂ := sheds₁.step zeroed.sound (sheds₁.owns.took sheds₁.sound.usable took
        (by rw [List.append_nil])) (took.spares.mono fun _ e => .inl e)
      rw [← e₂] at sheds₂
      have later := Nat.le_trans gave took.failures
      refine (meets_onSpace (Space.meets_releaseOne sheds₂.sound (took.held held))).bind
        (fun _ v₃ h₃ => ?_) fun e v₃ h₃ => ?_
      · obtain ⟨⟨sound₃, gave₃, free⟩, e₃⟩ := h₃
        have sheds₃ := sheds₂.step sound₃ (sheds₂.owns.gave gave₃ (Client.sectors_lose c s))
          (gave₃.spares.mono fun _ hk => .inl (List.mem_singleton.1 hk))
        rw [← e₃] at sheds₃
        have zero : v₃.space.stock.content s = Sector.zero := by
          rw [gave₃.content (took.held held).1, zeroed.content, Function.update_self]
        refine (meets_note sheds₃.sound _ (f := fun _ _ => False)).mono (fun _ v₄ h₄ => ?_)
          fun _ _ no => no.elim
        rw [h₄.2]
        exact ⟨sheds₃.rests h₄.1, (Space.Rests.gave h₄.1).kept s free,
          (congrFun h₄.1.content s).trans zero⟩
      · obtain ⟨⟨sound₃, gave₃, broke⟩, e₃⟩ := h₃
        have sheds₃ := sheds₂.step sound₃ (sheds₂.owns.gave gave₃ (by rw [List.append_nil]))
          (gave₃.spares.mono fun _ no => (List.not_mem_nil no).elim)
        rw [e₃]
        exact ⟨sheds₃, broke.1, Nat.lt_of_le_of_lt later broke.2⟩
    · obtain ⟨fails, e₂⟩ := h₂
      rw [e₂]
      exact ⟨sheds₁.rests fails.1, fails.2.1, Nat.lt_of_le_of_lt gave fails.2.2⟩
  · obtain ⟨m₁, ⟨sound₁, gave, broke, -⟩, e₁⟩ := h₁
    rw [e₁]
    exact ⟨sheds.below hs hid sound₁ (same ▸ gave) m₁.record, broke⟩

/-! ## Closing -/

theorem Inv.leads_dead (h : v.Inv floor c trees) {c' : Client}
    (leads : v.Leads floor c (· = s) v' c') (live : c'.live = c.live.erase s) :
    v.Leads floor c (· ∉ c'.live) v' c' := by
  refine ⟨⟨leads.inv, leads.follows, fun s' hs' alive => leads.same s' hs' fun e => ?_, leads.doomed⟩,
    leads.spared⟩
  have alive := Classical.not_not.1 alive
  rw [live, e] at alive
  exact h.owns.nodup_live.not_mem_erase alive

/-- What a node looks like after a close that wrote its record. -/
def dropped (n : Node) : Node := { n with record := n.currentRecord, opens := n.opens - 1 }

theorem Inv.sheds (h : v.Inv floor c trees) (o : v.Opened c id s) (last : (v.node id).opens ≤ 1)
    (removed : (v.node id).removed = true) {sp : Space} (sound : sp.Sound)
    (took : Stock.Took (· = s) [] v.space.stock sp.stock) :
    Sheds floor v trees id s (v.revised id dropped sp) (c.drop id) := by
  have node := node_revised o.inside dropped sp
  have here := (node id).trans (if_pos rfl)
  refine ⟨sound, h.owns.took h.space.usable took (by rw [List.append_nil]; exact .refl _),
    took.spares.mono fun _ e => .inl e, rfl, rfl, size_withNode .., fun j ne => ?_, ?_, ?_, ?_⟩
  · rw [node, if_neg ne]
  · rw [here]
    exact o.sector
  · rw [here]
    exact Nat.sub_eq_zero_of_le last
  · rw [here]
    exact removed

/-- The last close of a removed inode. -/
theorem meets_closeRemoved (h : v.Inv floor c trees) (o : v.Opened c id s) (hid : id ∈ c.handles.ids)
    (last : (v.node id).opens ≤ 1) (removed : (v.node id).removed = true) {sp : Space}
    (sound : sp.Sound) (took : Stock.Took (· = s) [] v.space.stock sp.stock) :
    Meets (do
        releaseNode id
        modifyTable (·.erase s)) (v.revised id dropped sp)
      (fun _ v' => v.Leads floor c (· ∉ (c.closed id s).live) v' (c.closed id s) ∧ v'.Vacated s)
      (fun e v' => v.Breaks floor c (· ∉ (c.interrupted id (v'.node id)).live) e v'
        (c.interrupted id (v'.node id))) := by
  have file := h.files s o.live
  have before := lengthOf_of_some o.entry
  have room := file.room
  rw [before] at room
  have here := (node_revised o.inside dropped sp id).trans (if_pos rfl)
  have sheds := h.sheds o last removed sound took
  have spared : ∀ k ∈ (trees s).blocks, k ≠ s := by
    rintro k hk rfl
    exact Client.not_mem_tree h.owns.nodup o.live (Client.mem_inodes_live o.live)
      (Tree.mem_sectors_blocks hk)
  have m : Mapping.Sound ⟨(v.revised id dropped sp).space, ((v.revised id dropped sp).node id).record⟩
      ((trees s).withLength (UInt32.ofNat (v.node id).length)) := by
    refine ⟨sound, ?_, (file.tree.frame took spared).withLength _⟩
    rw [here]
    unfold Tree.withLength dropped Node.currentRecord
    rw [file.record, recordOf_of_some o.entry]
  have enough : dataSectors ((v.revised id dropped sp).node id).record.length.toNat ≤
      (trees s).data.length := by
    have short : (UInt32.ofNat (v.node id).length).toNat ≤ (v.node id).length := by
      rw [UInt32.toNat_ofNat']
      exact Nat.mod_le ..
    have size : sectorSize = 512 := rfl
    rw [here]
    show dataSectors (UInt32.ofNat (v.node id).length).toNat ≤ _
    unfold dataSectors
    rw [size]
    omega
  refine (meets_releaseNode sheds o.live ((size_withNode ..).symm ▸ o.inside) m rfl enough).bind
    (fun _ v₁ h₁ => ?_) fun e v₁ h₁ => ?_
  · have dead : c.closed id s = (c.drop id).lose s :=
      if_pos ((h.tabled.dead_iff hid).2 ⟨last, removed⟩)
    have leads := h.lose o hid last removed h₁.1
    rw [← dead] at leads
    refine (meets_pure (a := PUnit.unit) ⟨h.leads_dead leads (by rw [dead]; rfl), ?_⟩).of_eq rfl
    exact ⟨h₁.2.free, h₁.2.zero⟩
  · obtain ⟨h₁, broke⟩ := h₁
    have dead : c.interrupted id (v₁.node id) = (c.drop id).doom s := by
      unfold Client.interrupted
      rw [if_pos h₁.gone, if_pos h₁.removed, h₁.sector]
    have failed := Nat.lt_of_le_of_lt took.failures broke.2
    have leads := h.doom o hid last removed h₁ failed
    rw [← dead] at leads
    exact ⟨h.leads_dead leads (by rw [dead]; rfl), broke.1, failed⟩

/-- Nobody has the inode at `s` open, and the disk has `r` as its record. -/
structure Shelved (v : Volume) (s : SectorId) (r : Record) : Prop where
  absent : v.table.lookup s = none
  stored : v.space.storage.disk.sector s.toNat = r.toSector

/-- Noting an event leaves the disk and the cache alone. -/
theorem meets_note_storage (h : v.space.Sound) (e : Event) {f : Fault → Volume → Prop} :
    Meets (note e) v
      (fun _ v' => (v.space.Rests v'.space ∧ v' = { v with space := v'.space }) ∧
        v'.space.storage.disk = v.space.storage.disk ∧
          v'.space.storage.cache = v.space.storage.cache) f := by
  have noting : Meets (Storage.note e) v.space.storage
      (fun _ st => st.disk = v.space.storage.disk ∧ st.cache = v.space.storage.cache)
      fun _ _ => False :=
    .of_ends (F := fun _ _ => False) (Storage.ends_note fun _ hd hc => ⟨hd, hc⟩) fun _ _ no => no.elim
  refine ((meets_note h e (f := fun _ _ => False)).and (meets_onSpace (Space.meets_lift noting))).mono
    (fun _ _ h₁ => ⟨h₁.1, h₁.2.1.1⟩) fun _ _ no => no.1.elim

/-- The last close of an inode that is not removed. -/
theorem meets_closeKept (h : v.Inv floor c trees) (o : v.Opened c id s) (hid : id ∈ c.handles.ids)
    (last : (v.node id).opens ≤ 1) (removed : (v.node id).removed ≠ true) {sp : Space}
    (sound : sp.Sound) (took : Stock.Took (· = s) [] v.space.stock sp.stock)
    (record : sp.stock.content s = (v.node id).currentRecord.toSector) :
    Meets (do
        modifyTable (·.erase s)
        let _ ← onSpace (Storage.flushSector s)
        note (.inodeClosed s)) (v.revised id dropped sp)
      (fun _ v' => v.Leads floor c (· ∉ (c.closed id s).live) v' (c.closed id s) ∧
        v'.Shelved s (v.node id).currentRecord)
      (fun e v' => v.Breaks floor c (· ∉ (c.interrupted id (v'.node id)).live) e v'
        (c.interrupted id (v'.node id))) := by
  have here := (node_revised o.inside dropped sp id).trans (if_pos rfl)
  have gone : (dropped (v.node id)).opens = 0 := Nat.sub_eq_zero_of_le last
  have leads := h.leave (f := dropped) o hid last sound took record rfl gone rfl
  have flushing := (Space.meets_onStorage_rests (d := fun _ => True) sound
    ((Storage.meets_flushSector sound.storage s).mono (fun _ _ h₁ => ⟨h₁, trivial⟩)
      fun _ _ h => h)).and (Space.meets_lift (Storage.meets_flushSector_stored sound.storage s))
  obtain ⟨v₁, e₁⟩ : ∃ v₁ : Volume, v₁ = { v.revised id dropped sp with table := v.table.erase s } :=
    ⟨_, rfl⟩
  have space : sp = v₁.space := by rw [e₁]; rfl
  have stays : c.closed id s = c.drop id :=
    if_neg fun dead => removed ((h.tabled.dead_iff hid).1 dead).2
  have stays' : ∀ sp', c.interrupted id (({ v₁ with space := sp' } : Volume).node id) = c.drop id := by
    intro sp'
    have node : ({ v₁ with space := sp' } : Volume).node id = dropped (v.node id) := by
      rw [e₁]
      exact here
    unfold Client.interrupted
    rw [node, if_pos gone]
    exact if_neg removed
  rw [← e₁] at leads
  rw [space] at flushing
  refine meets_modifyTable ?_
  show Meets _ { v.revised id dropped sp with table := v.table.erase s } _ _
  rw [← e₁]
  refine (meets_onSpace flushing).bind (fun _ v₂ h₂ => ?_) fun e v₂ h₂ => ?_
  · obtain ⟨⟨⟨-, rests⟩, ⟨same, stored⟩, -⟩, e₂⟩ := h₂
    rw [e₂]
    refine (meets_note_storage (v := { v₁ with space := v₂.space }) rests.sound _
      (f := fun _ _ => False)).mono (fun _ v₃ h₃ => ?_) fun _ _ no => no.elim
    obtain ⟨⟨rests₃, e₃⟩, disk, -⟩ := h₃
    refine ⟨?_, ?_, ?_⟩
    · rw [e₃, stays]
      exact ((leads.rests rests).rests rests₃).mono
    · rw [e₃]
      show v₁.table.lookup s = none
      rw [e₁]
      exact (OpenTable.lookup_erase s s v.table).trans (if_pos rfl)
    · have kept : v₂.space.storage.logical s = v₁.space.storage.logical s := congrFun same.logical s
      have there : v₁.space.storage.logical s = (v.node id).currentRecord.toSector := by
        rw [← space]
        exact record
      rw [disk, ← there, ← kept]
      exact stored
  · obtain ⟨⟨fails, -⟩, e₂⟩ := h₂
    have longer := leads.follows.stock.failures
    rw [e₂, stays']
    exact ⟨(leads.rests fails.1).mono, fails.2.1, Nat.lt_of_le_of_lt longer fails.2.2⟩

/-- One handle is closed. Inodes that stay alive keep their files. After the last close the sector
of a removed one is free, and the disk has the record of any other. -/
theorem meets_closeInode (h : v.Inv floor c trees) (o : v.Opened c id s) (hid : id ∈ c.handles.ids) :
    Meets (closeInode id) v
      (fun _ v' => v.Leads floor c (· ∉ (c.closed id s).live) v' (c.closed id s) ∧
        ((v.node id).opens ≤ 1 → (v.node id).removed = true → v'.Vacated s) ∧
        ((v.node id).opens ≤ 1 → (v.node id).removed = false →
          v'.Shelved s (v.node id).currentRecord))
      (fun e v' => v.Breaks floor c (· ∉ (c.interrupted id (v'.node id)).live) e v'
        (c.interrupted id (v'.node id))) := by
  unfold closeInode
  refine (meets_persist h.space o.inside (h.usable o)).bind (fun _ v₁ h₁ => ?_) fun e v₁ h₁ => ?_
  · obtain ⟨saved, e₁⟩ := h₁
    have took : Stock.Took (· = s) [] v.space.stock v₁.space.stock :=
      saved.took_put o.sector
    have record : v₁.space.stock.content s = (v.node id).currentRecord.toSector := by
      rw [saved.content, o.sector, Function.update_self]
    replace saved := saved.sound
    generalize v₁.space = sp at saved took record e₁
    rw [e₁]
    refine meets_getNode ?_
    rw [node_revised o.inside, if_pos rfl, if_neg (Nat.ne_of_gt o.opens)]
    refine meets_modifyNode ?_
    have e₂ : (v.revised id (fun n => { n with record := n.currentRecord }) sp).withNode id
        (fun n => { n with opens := n.opens - 1 }) =
          v.revised id dropped sp :=
      revised_revised v id (fun n => { n with record := n.currentRecord })
        (fun n => { n with opens := n.opens - 1 }) sp sp
    rw [e₂]
    simp only
    by_cases more : (v.node id).opens > 1
    · rw [if_pos more]
      have here := (node_revised o.inside dropped sp id).trans (if_pos rfl)
      have stays : c.closed id s = c.drop id := if_neg fun dead =>
        Nat.not_le_of_gt more ((h.tabled.dead_iff hid).1 dead).1
      have leads := h.keep (f := dropped) o saved took ⟨_, rfl⟩ rfl ⟨rfl, rfl⟩ (Nat.sub_pos_of_lt more)
        (h.tabled.handles.drop hid rfl rfl) fun _ => record
      refine meets_pure ?_
      rw [stays]
      exact ⟨leads.mono, fun last => absurd more (Nat.not_lt.2 last),
        fun last => absurd more (Nat.not_lt.2 last)⟩
    · rw [if_neg more, o.sector]
      have last := Nat.not_lt.1 more
      by_cases removed : (v.node id).removed = true
      · rw [if_pos removed]
        exact (meets_closeRemoved h o hid last removed saved took).mono
          (fun _ _ h₂ => ⟨h₂.1, fun _ _ => h₂.2, fun _ kept => by rw [removed] at kept; cases kept⟩)
          fun _ _ h₂ => h₂
      · rw [if_neg removed]
        exact (meets_closeKept h o hid last removed saved took record).mono
          (fun _ _ h₂ => ⟨h₂.1, fun _ removed' => absurd removed' removed, fun _ _ => h₂.2⟩)
          fun _ _ h₂ => h₂
  · obtain ⟨⟨rests, broke⟩, e₁⟩ := h₁
    have here := (node_revised o.inside (fun n => { n with record := n.currentRecord }) v₁.space
      id).trans (if_pos rfl)
    rw [← e₁] at here
    have stays : c.interrupted id (v₁.node id) = c.miss id := by
      unfold Client.interrupted
      rw [here]
      exact if_neg (Nat.ne_of_gt o.opens)
    have leads := h.keep (f := fun n => { n with record := n.currentRecord }) o rests.sound
      (Space.Rests.took rests) ⟨_, rfl⟩ rfl ⟨rfl, rfl⟩ o.opens (h.tabled.handles.lose hid rfl rfl)
      fun e => absurd e (h.floor_ne broke.2)
    rw [← e₁] at leads
    rw [stays]
    exact ⟨leads.mono, broke⟩

end Volume

end SectorVolume
