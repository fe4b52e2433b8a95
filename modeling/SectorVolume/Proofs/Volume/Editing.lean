import SectorVolume.Proofs.Volume.Files

/-!
# Reading open files and changing their length

What is done to the node and the sectors of one file leaves the others as they are. Reading yields
bytes of the file. A change of the length clears what is cut off and stays within the sectors that
the file has. An error of the disk leaves a file whose tree is sound.
-/

namespace SectorVolume

open SectorVolume.Action

namespace Tree

variable {t : Tree} {a : Stock}

/-- The tree with another length in its record. -/
def withLength (t : Tree) (length : UInt32) : Tree :=
  { t with record := { t.record with length } }

theorem Sound.withLength [Promise] (h : t.Sound a) (length : UInt32) :
    (t.withLength length).Sound a :=
  ⟨⟨h.maps.nonzero, h.maps.direct, h.maps.noFirst, h.maps.first, h.maps.noTop, h.maps.top,
    h.maps.reach, h.maps.full, h.maps.width, h.maps.child⟩, h.nodup, h.held⟩

end Tree

theorem Record.isValid_of_rest {r r' : Record} (h : r'.withoutSectors = r.withoutSectors) :
    r'.isValid = r.isValid := by
  have magic : r'.withoutSectors.magic = r.withoutSectors.magic := congrArg Record.magic h
  have magic : r'.magic = r.magic := magic
  unfold Record.isValid
  rw [magic]

theorem Record.isDirectory_of_rest {r r' : Record} (h : r'.withoutSectors = r.withoutSectors) :
    r'.isDirectory = r.isDirectory := by
  have flag : r'.withoutSectors.directoryFlag = r.withoutSectors.directoryFlag :=
    congrArg Record.directoryFlag h
  have flag : r'.directoryFlag = r.directoryFlag := flag
  unfold Record.isDirectory
  rw [flag]

/-- A record is known by the sectors that it names and by the rest of it. -/
theorem Record.eq_of_samePointers {r r' : Record} (same : r'.samePointers r = true)
    (rest : r'.withoutSectors = r.withoutSectors) : r' = r := by
  obtain ⟨direct, indirect, top, length, flag, magic, reserved⟩ := r
  obtain ⟨direct', indirect', top', length', flag', magic', reserved'⟩ := r'
  unfold samePointers at same
  simp only [Bool.and_eq_true, beq_iff_eq] at same
  unfold withoutSectors at rest
  simp only [Record.mk.injEq, true_and] at rest
  simp only [same, rest]

namespace Volume

variable {v v' : Volume} {s : SectorId} {t t' : Tree} {id : NodeId} {c : Client}
  {floor : Nat} {trees : SectorId → Tree}

variable [Promise]

theorem meets_note (h : v.space.Sound) (e : Event) {f : Fault → Volume → Prop} :
    Meets (note e) v
      (fun _ v' => v.space.Rests v'.space ∧ v' = { v with space := v'.space }) f :=
  (meets_onSpace (Space.meets_note h e (f := fun _ _ => False))).mono (fun _ _ h => h)
    fun _ _ no => no.1.elim

/-- The record of a node is brought up to date and written to its sector. -/
theorem meets_persist (h : v.space.Sound) (hid : id < v.nodes.size)
    (hs : v.space.stock.Usable (v.node id).sector) :
    Meets (persist id) v
      (fun _ v' => v.space.Rewrites v'.space (Function.update v.space.stock.content
          (v.node id).sector (v.node id).currentRecord.toSector) ∧
        v' = v.revised id (fun n => { n with record := n.currentRecord }) v'.space)
      (fun e v' => v.space.Fails e v'.space ∧
        v' = v.revised id (fun n => { n with record := n.currentRecord }) v'.space) := by
  unfold persist
  refine meets_modifyNode (meets_getNode ?_)
  rw [node_withNode hid, if_pos rfl]
  exact meets_onSpace (v := v.withNode id _) (Space.meets_onStorage_put h hs.2.1
    (Storage.meets_replaceSector h.storage hs.lt _))

/-- From `v` to `v'` node `id` got the length `length`, and its record and its sector may have been
brought up to date. -/
structure Settles (v : Volume) (id : NodeId) (length : Nat) (v' : Volume) : Prop where
  sound : v'.space.Sound
  took : Stock.Took (· = (v.node id).sector) [] v.space.stock v'.space.stock
  node : ∃ f l, v' = v.revised id f v'.space ∧ f (v.node id) =
    { v.node id with length := length, record := { (v.node id).record with length := l } }

/-- The sector of a node holds its record. -/
def Saved (v : Volume) (id : NodeId) : Prop :=
  v.space.stock.content (v.node id).sector = (v.node id).currentRecord.toSector

theorem settles_self (h : v.space.Sound) : v.Settles id (v.node id).length v :=
  ⟨h, .refl _, fun n => n, _, (revised_self v id).symm, rfl⟩

theorem Settles.of_modify {length length' : Nat}
    (h : (v.withNode id fun n => { n with length }).Settles id length' v')
    (hid : id < v.nodes.size) : v.Settles id length' v' := by
  obtain ⟨f, l, e, node⟩ := h.node
  have here : (v.withNode id fun n => { n with length }).node id = { v.node id with length } :=
    (node_withNode hid _ id).trans (if_pos rfl)
  have took := h.took
  rw [here] at took node
  refine ⟨h.sound, took, _, l, e.trans (revised_revised v id _ f v.space _), node⟩

/-- Persisting a node leaves it with its length. -/
theorem settles_persist (h : v.space.Sound) (hid : id < v.nodes.size)
    (hs : v.space.stock.Usable (v.node id).sector) :
    Meets (persist id) v (fun _ v' => v.Settles id (v.node id).length v' ∧ v'.Saved id)
      (fun e v' => v.Settles id (v.node id).length v' ∧
        Stock.Broke v.space.stock v'.space.stock e) := by
  refine (meets_persist h hid hs).mono (fun _ v₁ h₁ => ?_) fun e v₁ h₁ => ?_
  · refine ⟨⟨h₁.1.sound, h₁.1.took_put rfl, _, _, h₁.2, rfl⟩, ?_⟩
    have here : v₁.node id = { v.node id with record := (v.node id).currentRecord } := by
      rw [h₁.2]
      exact (node_revised hid _ _ id).trans (if_pos rfl)
    unfold Saved
    rw [here, h₁.1.content]
    exact Function.update_self ..
  · exact ⟨⟨h₁.1.1.sound, Space.Rests.took h₁.1.1, _, _, h₁.2, rfl⟩, h₁.1.2⟩

/-! ## Changing one file -/

namespace Inv

theorem mapping (h : v.Inv floor c trees) (o : v.Opened c id s) :
    Mapping.Sound ⟨v.space, (v.node id).record⟩ (trees s) :=
  ⟨h.space, (h.files s o.live).record.trans (recordOf_of_some o.entry), (h.files s o.live).tree⟩

theorem usable (h : v.Inv floor c trees) (o : v.Opened c id s) :
    v.space.stock.Usable (v.node id).sector := by
  rw [o.sector]
  exact (h.held_inode (Client.mem_inodes_live o.live)).1

/-- While no transfer failed the sector of an open inode holds its record. -/
theorem saved (h : v.Inv floor c trees) (o : v.Opened c id s)
    (e : v.space.stock.failures = floor) :
    v.space.stock.content s = (v.node id).currentRecord.toSector :=
  (coherent_of_some o.entry).1 (h.current e s o.live)

/-- The file at `s` gets the tree `t` and the length that its node has now; after that its sector
may be written. -/
theorem edit (h : v.Inv floor c trees) (o : v.Opened c id s) {sp₁ sp : Space}
    (alters : (trees s).Alters v.space.stock t sp₁.stock) (sound : sp.Sound)
    (took : Stock.Took (· = s) [] sp₁.stock sp.stock) {f : Node → Node}
    (record : ∃ length, (f (v.node id)).record = { t.record with length })
    (room : (f (v.node id)).length ≤ 512 * t.data.length)
    (zeros : ∀ i, (f (v.node id)).length ≤ i → byteIn sp₁.stock.content t.data i = 0)
    {handles : Handles} (fixed : (f (v.node id)).sector = (v.node id).sector ∧
      (f (v.node id)).isDirectory = (v.node id).isDirectory)
    (opens : 0 < (f (v.node id)).opens)
    (counts : handles.Counts fun j => if j = id then f (v.node id) else v.node j)
    (current : sp.stock.failures = floor →
      sp.stock.content s = (f (v.node id)).currentRecord.toSector) :
    v.Leads floor c (· = s) (v.revised id f sp) { c with handles } ∧
      (v.revised id f sp).lengthOf s = (f (v.node id)).length ∧
      (v.revised id f sp).mappedOf s = ⟨t.data, t.blocks⟩ ∧
      ∀ i, ((v.revised id f sp).bytes s).getD i 0 =
        byteIn sp₁.stock.content t.data i := by
  obtain ⟨length, record⟩ := record
  obtain ⟨ids, took₁, perm⟩ := alters.taken
  have held := h.held_inode (Client.mem_inodes_live o.live)
  have notin : s ∉ t.sectors := by
    intro hs
    rcases List.mem_append.1 (perm.mem_iff.1 hs) with hs | hs
    · exact Client.not_mem_tree h.owns.nodup o.live (Client.mem_inodes_live o.live) hs
    · exact held.2 (took₁.free s hs)
  have node : (v.revised id f sp).node id = f (v.node id) :=
    (node_revised o.inside f sp id).trans (if_pos rfl)
  have entry : (v.revised id f sp).table.lookup s = some id := o.entry
  have lengthOf : (v.revised id f sp).lengthOf s = (f (v.node id)).length :=
    (lengthOf_of_some entry).trans (congrArg Node.length node)
  have same : ∀ i, byteIn sp.stock.content t.data i = byteIn sp₁.stock.content t.data i :=
    byteIn_congr fun id hid => took.content (alters.sound.held id (Tree.mem_sectors_data hid))
      fun e => notin (e ▸ Tree.mem_sectors_data hid)
  have tree : t.Sound sp.stock :=
    alters.sound.frame took fun id hid e => notin (e ▸ Tree.mem_sectors_blocks hid)
  have file : (v.revised id f sp).File s (t.withLength length) := by
    refine ⟨?_, tree.withLength length, ?_, ?_, lengthOf ▸ room, fun i hi => ?_⟩
    · exact ((recordOf_of_some entry).trans ((congrArg Node.record node).trans record)).symm
    · exact (Record.isValid_of_rest alters.rest).trans (h.files s o.live).valid
    · have kind := (kindOf_of_some o.entry).symm.trans (h.files s o.live).kind
      rw [kindOf_of_some entry, node, fixed.2, kind]
      exact (Record.isDirectory_of_rest alters.rest).symm
    · exact (same i).trans (zeros i (lengthOf ▸ hi))
  refine ⟨h.change o sound (t := t.withLength length) ?_ perm file fixed.1 opens counts
    fun e => (coherent_of_some entry).2 (node.symm ▸ current e), lengthOf, file.mappedOf_eq,
    fun i => (file.getD_bytes i).trans (same i)⟩
  exact (took₁.mono fun _ _ hs => .inr hs).trans_nil took fun _ _ hs => .inl hs

/-- The file at `s` stays as it is. Its sector may be written, and its node be changed otherwise. -/
theorem keep (h : v.Inv floor c trees) (o : v.Opened c id s) {sp : Space} (sound : sp.Sound)
    (took : Stock.Took (· = s) [] v.space.stock sp.stock) {f : Node → Node}
    (record : ∃ length, (f (v.node id)).record = { (v.node id).record with length })
    (length : (f (v.node id)).length = (v.node id).length) {handles : Handles}
    (fixed : (f (v.node id)).sector = (v.node id).sector ∧
      (f (v.node id)).isDirectory = (v.node id).isDirectory)
    (opens : 0 < (f (v.node id)).opens)
    (counts : handles.Counts fun j => if j = id then f (v.node id) else v.node j)
    (current : sp.stock.failures = floor →
      sp.stock.content s = (f (v.node id)).currentRecord.toSector) :
    v.Leads floor c Stock.nowhere (v.revised id f sp) { c with handles } := by
  have file := h.files s o.live
  have lengthOf := lengthOf_of_some o.entry
  obtain ⟨l, record⟩ := record
  have record' : (f (v.node id)).record = { (trees s).record with length := l } := by
    rw [record, file.record, recordOf_of_some o.entry]
  obtain ⟨leads, lengthOf', mapped, bytes⟩ := h.edit o (t := trees s) file.tree.refl.alters sound took
    ⟨l, record'⟩ (by rw [length, ← lengthOf]; exact file.room)
    (fun i hi => file.zeros i (by rw [lengthOf, ← length]; exact hi)) fixed opens counts current
  rw [length, ← lengthOf] at lengthOf'
  refine leads.nowhere fun s' e => ?_
  subst e
  refine ⟨Bytes.ext_getD ?_ fun i => (bytes i).trans (file.getD_bytes i).symm,
    mapped.trans file.mappedOf_eq.symm, ?_⟩
  · rw [size_bytes, size_bytes, lengthOf']
  · have node : (v.revised id f sp).node id = f (v.node id) :=
      (node_revised o.inside f sp id).trans (if_pos rfl)
    have entry : (v.revised id f sp).table.lookup s' = some id := o.entry
    unfold currentOf
    rw [lengthOf', recordOf_of_some entry, recordOf_of_some o.entry, node, record]

end Inv

/-- A transfer failed. Until then no bytes of a live inode changed that is not in `X`. -/
def Breaks (floor : Nat) (v : Volume) (c : Client) (X : SectorId → Prop) (e : Fault) (v' : Volume)
    (c' : Client) : Prop :=
  v.Leads floor c X v' c' ∧ Stock.Broke v.space.stock v'.space.stock e

/-! ## Reading -/

/-- What is done to the space without changing what it offers leads on. -/
theorem Inv.meets_rests (h : v.Inv floor c trees) {α : Type} {x : Action Space α}
    {d : α → Space → Prop}
    (hx : Meets x v.space (fun a sp => d a sp ∧ v.space.Rests sp) v.space.Fails) :
    Meets (onSpace x) v
      (fun a v' => v.Leads floor c Stock.nowhere v' c ∧ d a v'.space)
      (fun e v' => v.Breaks floor c Stock.nowhere e v' c) := by
  refine (meets_onSpace hx).mono (fun a v₁ h₁ => ?_) fun e v₁ h₁ => ?_
  · refine ⟨?_, h₁.1.1⟩
    rw [h₁.2]
    exact h.leads_rests h₁.1.2
  · rw [h₁.2]
    exact ⟨h.leads_rests h₁.1.1, h₁.1.2⟩

/-- The bytes in a range are read, as far as the file has them. -/
theorem meets_readAt (h : v.Inv floor c trees) (o : v.Opened c id s) (offset len : Nat) :
    Meets (readAt id offset len) v
      (fun b v' => v.Leads floor c Stock.nowhere v' c ∧
        b = (v.bytes s).extract offset (offset + len))
      (fun e v' => v.Breaks floor c Stock.nowhere e v' c) := by
  have m := h.mapping o
  have file := h.files s o.live
  have lengthOf := lengthOf_of_some o.entry
  have reading := Space.meets_readPieces m.space m.tree #[] offset
    (min len ((v.node id).length - offset))
  rw [m.record] at reading
  unfold readAt
  refine meets_getNode ((h.meets_rests reading).mono ?_ fun _ _ breaks => breaks)
  rintro _ v' ⟨leads, rfl⟩
  refine ⟨leads, Bytes.ext_getD ?_ fun i => ?_⟩
  · rw [Array.empty_append, size_span, Array.size_extract, size_bytes, lengthOf]
    omega
  · rw [Array.empty_append, Bytes.getD_extract, Bytes.getD_span, file.getD_bytes]
    by_cases lt : i < min len ((v.node id).length - offset)
    · rw [if_pos lt, if_pos (by omega)]
    · rw [if_neg lt]
      by_cases lt' : offset + i < offset + len
      · rw [if_pos lt', file.zeros _ (by omega)]
      · rw [if_neg lt']

/-! ## Changing the length -/

/-- After a part of the file was cleared, the node gets a length beyond which there are zeros. The
sectors are those that there were. -/
theorem Inv.cleared (h : v.Inv floor c trees) (o : v.Opened c id s) {start count length : Nat}
    {sp : Space} (clears : v.space.Clears (trees s) start count sp)
    (settles : { v with space := sp }.Settles id length v')
    (room : length ≤ 512 * (trees s).data.length)
    (beyond : ∀ i, length ≤ i → start ≤ i ∧ i < start + count ∨ (v.node id).length ≤ i)
    (current : v'.space.stock.failures = floor → v'.Saved id) :
    v.Leads floor c (· = s) v' c ∧ v'.mappedOf s = v.mappedOf s ∧ (v'.bytes s).size = length ∧
      ∀ i, (v'.bytes s).getD i 0 =
        if start ≤ i ∧ i < start + count then 0 else (v.bytes s).getD i 0 := by
  have file := h.files s o.live
  have before := lengthOf_of_some o.entry
  obtain ⟨f, l, e, node⟩ := settles.node
  replace node : f (v.node id) =
      { v.node id with length := length, record := { (v.node id).record with length := l } } := node
  replace e : v' = v.revised id f v'.space := e
  have took : Stock.Took (· = s) [] sp.stock v'.space.stock := o.sector ▸ settles.took
  have opens : (f (v.node id)).opens = (v.node id).opens := by rw [node]
  have now : v'.node id = f (v.node id) := by
    rw [e]
    exact (node_revised o.inside f v'.space id).trans (if_pos rfl)
  unfold Saved at current
  rw [now] at current
  obtain ⟨leads, lengthOf, mapped, spell⟩ := h.edit o clears.alters settles.sound took
    ⟨l, by rw [node, file.record, recordOf_of_some o.entry]⟩ (by rw [node]; exact room)
    (fun i hi => by
      rw [node] at hi
      rw [clears.bytes]
      rcases beyond i hi with inside | past
      · rw [if_pos inside]
      · rw [file.zeros i (by rw [before]; exact past), ite_self])
    (by rw [node]; exact ⟨rfl, rfl⟩) (Nat.lt_of_lt_of_eq o.opens opens.symm)
    (h.tabled.handles.same opens (by rw [node]))
    fun e => by rw [← current e, node, ← o.sector]
  rw [e]
  refine ⟨leads, mapped.trans file.mappedOf_eq.symm, ?_, fun i => ?_⟩
  · rw [size_bytes, lengthOf, node]
  · rw [spell, clears.bytes, file.getD_bytes]

/-- A file gets a length that its sectors can hold, and no other one. It keeps all of them. -/
theorem meets_setLength (h : v.Inv floor c trees) (o : v.Opened c id s) (length : Nat) :
    Meets (setLength id length) v
      (fun _ v' => v.Leads floor c (· = s) v' c ∧ length ≤ 512 * (v.mappedOf s).data.length ∧
        v'.bytes s = (v.bytes s).resized length ∧ v'.mappedOf s = v.mappedOf s)
      (fun e v' => v.Leads floor c Stock.nowhere v' c ∧
          512 * (v.mappedOf s).data.length < length ∧ (∃ limit, e = .sizeLimit length limit) ∨
        v.Breaks floor c (· = s) e v' c) := by
  have m := h.mapping o
  have file := h.files s o.live
  have before := lengthOf_of_some o.entry
  have room := file.room
  rw [before] at room
  have reading := Space.meets_mapped m.space m.tree
  rw [m.record] at reading
  unfold setLength
  refine meets_getNode ((meets_onSpace reading).bind (fun mapped v₁ h₁ => ?_) fun e v₁ h₁ => ?_)
  · obtain ⟨⟨rfl, rests⟩, e₁⟩ := h₁
    rw [e₁, file.mappedOf_eq]
    simp only
    have clears : ∀ {count : Nat} {sp : Space}, v₁.space.Clears (trees s) length count sp →
        v.space.Clears (trees s) length count sp := by
      intro count sp h'
      have := (Space.Rests.clears rests m.tree length).trans h'
      rwa [Nat.zero_add] at this
    have finish : ∀ sp, v.space.Clears (trees s) length ((v.node id).length - length) sp →
        length ≤ 512 * (trees s).data.length → Meets (do
          modifyNode id fun n => { n with length }
          persist id) { v with space := sp }
        (fun _ v' => v.Leads floor c (· = s) v' c ∧ length ≤ 512 * (trees s).data.length ∧
          v'.bytes s = (v.bytes s).resized length ∧
            v'.mappedOf s = ⟨(trees s).data, (trees s).blocks⟩)
        (fun e v' => v.Leads floor c Stock.nowhere v' c ∧ 512 * (trees s).data.length < length ∧
            (∃ limit, e = .sizeLimit length limit) ∨
          v.Breaks floor c (· = s) e v' c) := by
      intro sp clears le
      obtain ⟨_, took, -⟩ := clears.alters.taken
      have usable := took.usable.2 (h.usable o)
      have here := (node_withNode (v := { v with space := sp }) o.inside
        (fun n => { n with length }) id).trans (if_pos rfl)
      have settled := settles_persist (v := ({ v with space := sp } : Volume).withNode id
        fun n => { n with length }) clears.sound ((size_withNode ..).symm ▸ o.inside)
        (by rw [here]; exact usable)
      rw [here] at settled
      have beyond : ∀ i, length ≤ i →
          length ≤ i ∧ i < length + ((v.node id).length - length) ∨ (v.node id).length ≤ i := by
        omega
      refine meets_modifyNode (settled.mono (fun _ v₂ h₂ => ?_) fun e v₂ h₂ => ?_)
      · obtain ⟨leads, mapped, size, bytes⟩ := h.cleared o clears (h₂.1.of_modify o.inside) le beyond
          fun _ => h₂.2
        refine ⟨leads, le, Bytes.ext_getD ?_ fun i => ?_, mapped.trans file.mappedOf_eq⟩
        · rw [size, Bytes.size_resized]
        · rw [bytes, Bytes.getD_resized]
          by_cases lt : i < length
          · rw [if_pos lt, if_neg (by omega)]
          · rw [if_neg lt]
            rcases beyond i (Nat.not_lt.1 lt) with inside | past
            · rw [if_pos inside]
            · rw [Bytes.getD_of_le (by rw [size_bytes, before]; exact past), ite_self]
      · have failed := Nat.lt_of_le_of_lt took.failures h₂.2.2
        obtain ⟨leads, -⟩ := h.cleared o clears (h₂.1.of_modify o.inside) le beyond
          fun e => absurd e (h.floor_ne failed)
        exact .inr ⟨leads, h₂.2.1, failed⟩
    have size : sectorSize = 512 := rfl
    rw [size]
    by_cases beyond : length > (trees s).data.length * 512
    · rw [if_pos beyond]
      refine (meets_fail (f := fun e v' => e = .sizeLimit length ((trees s).data.length * 512) ∧
        v' = { v with space := v₁.space }) ⟨rfl, rfl⟩).bind
        (d := fun _ _ => False) (fun _ _ no => no.elim) fun e v₂ h₂ => ?_
      rw [h₂.2]
      exact .inl ⟨h.leads_rests rests, by omega, _, h₂.1⟩
    · rw [if_neg beyond]
      by_cases less : length < (v.node id).length
      · rw [if_pos less]
        have e : min (v.node id).length ((trees s).data.length * 512) = (v.node id).length := by
          omega
        have zeroing := Space.meets_zeroPieces rests.sound (m.tree.stays rests.took).sound length
          ((v.node id).length - length)
        rw [m.record] at zeroing
        rw [e]
        refine (meets_onSpace (v := { v with space := v₁.space }) zeroing).bind (fun _ v₂ h₂ => ?_)
          fun e v₂ h₂ => ?_
        · rw [h₂.2]
          exact finish _ (clears h₂.1) (by omega)
        · obtain ⟨⟨count, le, cleared, broke⟩, e₂⟩ := h₂
          rw [e₂]
          have failed := Nat.lt_of_le_of_lt rests.failures broke.2
          obtain ⟨leads, -⟩ := h.cleared o (clears cleared) (settles_self cleared.sound) room
            (fun i hi => .inr hi) fun e => absurd e (h.floor_ne failed)
          exact .inr ⟨leads, broke.1, failed⟩
      · rw [if_neg less]
        refine finish _ ?_ (by omega)
        rw [show (v.node id).length - length = 0 by omega]
        exact Space.Rests.clears rests m.tree length
  · obtain ⟨fails, e₁⟩ := h₁
    rw [e₁]
    exact .inr ⟨(h.leads_rests fails.1).mono, fails.2⟩

end Volume

end SectorVolume
