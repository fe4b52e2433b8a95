import SectorVolume.Proofs.Cache.Mirroring
import SectorVolume.Proofs.Volume.Frames

/-!
# Looking at a volume

Opening, reading, listing and closing inodes changes nothing on the disk, whatever stands there.
Closing writes a record, but only the one that was read: taking a sector apart and putting it
together again yields the same bytes, the words without a meaning included, and the length that the
node keeps comes from the record. So the disk is told what it has. Looking in vain for a free sector
writes nothing either.
-/

namespace SectorVolume

open SectorVolume.Action

open Storage (mirrors_note mirrors_readSector mirrors_read mirrors_readView mirrors_replaceSector
  mirrors_flushSector)

variable {c : Content} {α : Type}

/-- Reading a sector writes nothing but what is there. -/
theorem Storage.readable_mirrors : (Comparison.single (Storage.Mirrors c)).Readable :=
  Comparison.readable_single mirrors_readSector mirrors_read

/-- The record of the node stands in its sector, and its sectors are not to be given back. -/
structure Node.Mirrors (c : Content) (n : Node) : Prop where
  kept : n.removed = false
  has : c.Has n.sector.toNat
  record : n.currentRecord.toSector = c.sector n.sector.toNat

/-- The length that a node keeps goes back into the record as it came from there. -/
theorem Node.currentRecord_ofRecord (s : SectorId) (r : Record) : (ofRecord s r).currentRecord = r := by
  unfold currentRecord ofRecord
  simp only [UInt32.ofNat_toNat]

theorem Node.mirrors_ofRecord {s : SectorId} (has : c.Has s.toNat) :
    (ofRecord s (.ofSector (c.sector s.toNat))).Mirrors c :=
  ⟨rfl, has, by rw [currentRecord_ofRecord, Record.toSector_ofSector]; rfl⟩

namespace FreeMap

variable {st : Storage} {m : FreeMap} {w : Prop} {n : Nat}

/-- As long as no free sector is found the bitmap is only read. -/
theorem mirrors_takeFrom (h : st.Mirrors c) (i count : Nat) :
    Ends (m.takeFrom i count) st (fun r st' => r = none → st'.Mirrors c) fun _ _ => True := by
  induction count generalizing st i with
  | zero => exact ends_pure fun _ => h
  | succ count ih =>
    unfold takeFrom
    refine (m.preserves_sectorAt i st h).bind (fun sector st₁ h₁ => ?_) fun _ _ _ => trivial
    refine (mirrors_readSector sector st₁ h₁).bind (fun s st₂ h₂ => ?_) fun _ _ _ => trivial
    split
    · exact (ends_trivial _ _).bind (fun _ _ _ => ends_pure nofun) fun _ _ _ => trivial
    · exact ih h₂ (i + 1)

/-- When there is no free sector nothing is written, on a disk that works. -/
theorem mirrors_allocate (h : st.Mirrors c) (hp : m.Placed n) (good : st.Good w n [])
    (works : w) : Ends (m.allocate 1) st (fun _ _ => True) fun _ st' => st'.Mirrors c := by
  have taking : Meets m.takeOne st (fun r st' => r = none → st'.Mirrors c) fun _ _ => False := by
    refine Meets.of_ends (((meets_takeOne hp.stands good).ends.and (mirrors_takeFrom h 0 m.sectors)).mono
      (fun _ _ h => h.2) fun _ _ h => h) ?_
    rintro _ st' ⟨⟨cause, -, -, broken, -⟩, -⟩
    exact absurd works broken
  rw [allocate_eq (by decide)]
  unfold takeMore
  refine (taking.attempt (D := fun r st' => ∃ id, r = .ok id ∧ (id = none → st'.Mirrors c))
    (F := fun _ _ => False) (fun id _ h => ⟨id, rfl, h⟩) fun _ _ no => no.elim).ends.bind
    (fun r st₁ h₁ => ?_) fun _ _ no => no.elim fun _ no => no.2.elim
  obtain ⟨id, rfl, mirrors⟩ := h₁
  cases id with
  | some id => exact ends_pure trivial
  | none => exact ends_throw (mirrors rfl)

end FreeMap

namespace Volume

variable {v : Volume} {id : NodeId}

/-- The storage mirrors the content, and so does each node. -/
structure Mirrors (c : Content) (v : Volume) : Prop where
  storage : v.space.storage.Mirrors c
  node : ∀ id < v.nodes.size, (v.node id).Mirrors c
  entry : ∀ s id, v.table.lookup s = some id → id < v.nodes.size

/-- Node `id` was made too. -/
structure Sees (c : Content) (id : NodeId) (v : Volume) : Prop extends v.Mirrors c where
  inside : id < v.nodes.size

theorem Mirrors.respace (h : v.Mirrors c) {sp : Space} (storage : sp.storage.Mirrors c) :
    Mirrors c { v with space := sp } := ⟨storage, h.node, h.entry⟩

theorem Sees.respace (h : v.Sees c id) {sp : Space} (storage : sp.storage.Mirrors c) :
    Sees c id { v with space := sp } := ⟨h.toMirrors.respace storage, h.inside⟩

theorem mirrors_onSpace {x : Action Space α} (hx : Preserves (fun sp => sp.storage.Mirrors c) x) :
    Preserves (Mirrors c) (onSpace x) := fun v h =>
  (ends_onSpace (hx v.space h.storage)).mono (fun _ _ h' => h'.2 ▸ h.respace h'.1)
    fun _ _ h' => h'.2 ▸ h.respace h'.1

theorem sees_onSpace {x : Action Space α} (hx : Preserves (fun sp => sp.storage.Mirrors c) x) :
    Preserves (Sees c id) (onSpace x) := fun v h =>
  (ends_onSpace (hx v.space h.storage)).mono (fun _ _ h' => h'.2 ▸ h.respace h'.1)
    fun _ _ h' => h'.2 ▸ h.respace h'.1

theorem sees_onStorage {x : Action Storage α} (hx : Preserves (Storage.Mirrors c) x) :
    Preserves (Sees c id) (onSpace (Space.onStorage x)) :=
  sees_onSpace (Space.preserves_onStorage hx)

theorem sees_note (e : Event) : Preserves (Sees c id) (note e) := sees_onStorage (mirrors_note e)

theorem Sees.modifyNode (h : v.Sees c id) {f : Node → Node} (hf : (f (v.node id)).Mirrors c) :
    (v.withNode id f).Sees c id := by
  have size := v.size_withNode id f
  refine ⟨⟨h.storage, fun j hj => ?_, fun s j e => size ▸ h.entry s j e⟩, size ▸ h.inside⟩
  rw [size] at hj
  rw [node_withNode h.inside]
  split
  · exact hf
  · exact h.node j hj

theorem Mirrors.push (h : v.Mirrors c) {n : Node} (hn : n.Mirrors c) (s : SectorId) :
    Sees c v.nodes.size ⟨v.space, v.superblock, v.nodes.push n, v.table.insert s v.nodes.size⟩ := by
  have size : (v.nodes.push n).size = v.nodes.size + 1 := Array.size_push ..
  have last : v.nodes.size < (v.nodes.push n).size := Nat.lt_of_lt_of_eq (Nat.lt_succ_self _) size.symm
  refine ⟨⟨h.storage, fun j hj => ?_, fun s' j e => ?_⟩, last⟩
  · show ((v.nodes.push n).getD j default).Mirrors c
    rw [getD_push]
    split
    · exact hn
    · next ne =>
      have hj : j < v.nodes.size + 1 := Nat.lt_of_lt_of_eq hj size
      exact h.node j (Nat.lt_of_le_of_ne (Nat.le_of_lt_succ hj) ne)
  · show j < (v.nodes.push n).size
    rw [OpenTable.lookup_insert] at e
    split at e
    · cases e
      exact last
    · exact Nat.lt_trans (h.entry s' j e) last

theorem Sees.eraseEntry (h : v.Sees c id) (s : SectorId) :
    Sees c id { v with table := v.table.erase s } := by
  refine ⟨⟨h.storage, h.node, fun s' j e => ?_⟩, h.inside⟩
  rw [OpenTable.lookup_erase] at e
  split at e
  · cases e
  · exact h.entry s' j e

/-! ## Opening -/

theorem mirrors_note (e : Event) : Preserves (Mirrors c) (note e) :=
  mirrors_onSpace (Space.preserves_onStorage (Storage.mirrors_note e))

/-- A node is made of the record that stands in the sector. -/
theorem mirrors_readInode (h : v.Mirrors c) (s : SectorId) :
    Ends (readInode s) v (fun id v' => v'.Sees c id) fun _ v' => v'.Mirrors c := by
  have reading : Ends (onSpace (Space.onStorage (Storage.readView Record.view s 0))) v
      (fun r v' => v'.Mirrors c ∧ c.Has s.toNat ∧ r = .ofSector (c.sector s.toNat))
      fun _ v' => v'.Mirrors c := by
    refine (ends_onSpace (Space.ends_onStorage (mirrors_readView h.storage _ s 0))).mono ?_
      fun _ _ h' => h'.2 ▸ h.respace h'.1.1
    rintro r v₁ ⟨⟨⟨storage, has, e⟩, -⟩, same⟩
    rw [read_view] at e
    exact ⟨same ▸ h.respace storage, has, (Except.ok.inj e).symm⟩
  unfold readInode
  refine reading.bind (fun r v₁ h₁ => ?_) fun _ _ h => h
  obtain ⟨h₁, has, rfl⟩ := h₁
  extract_lets make
  have made : ∀ v₂ : Volume, v₂.Mirrors c →
      Ends (make ⟨⟩) v₂ (fun id v' => v'.Sees c id) fun _ v' => v'.Mirrors c := by
    intro v₂ h₂
    refine ends_get_bind (ends_modify_bind ?_)
    have sees := h₂.push (Node.mirrors_ofRecord has) s
    exact (sees_note _ _ sees).bind (fun _ v₃ h₃ => ends_pure h₃) fun _ _ h => h.toMirrors
  split
  · exact (mirrors_note _ _ h₁).bind (fun _ v₂ h₂ => ends_throw h₂) fun _ _ h => h
  · exact made v₁ h₁

/-- An inode that is open already gets one more user. -/
theorem mirrors_openInode (h : v.Mirrors c) (s : SectorId) :
    Ends (openInode s) v (fun id v' => v'.Sees c id) fun _ v' => v'.Mirrors c := by
  unfold openInode
  refine ends_get_bind ?_
  extract_lets look
  have looking : Ends (look ⟨⟩) v (fun id v' => v'.Sees c id) fun _ v' => v'.Mirrors c := by
    refine ends_get_bind ?_
    split
    · next id entry =>
      have sees : v.Sees c id := ⟨h, h.entry s id entry⟩
      refine ends_getNode ?_
      split
      · exact (mirrors_note _ _ h).bind (fun _ v₂ h₂ => ends_throw h₂) fun _ _ h => h
      · obtain ⟨kept, has, record⟩ := h.node id sees.inside
        exact ends_modifyNode (ends_pure (sees.modifyNode ⟨kept, has, record⟩))
    · exact mirrors_readInode h s
  split
  · split
    · exact ends_throw h
    · exact looking
  · exact looking

/-- The superblock is read and believed, or not. -/
theorem mirrors_recognise : Preserves (Storage.Mirrors c) recognise := by
  have create : ∀ sb : Superblock, Preserves (Storage.Mirrors c) (Action.ofExcept (FreeMap.create
      sb.bitmapStart sb.bitmapSectors.toNat sb.totalSectors.toNat) : Action Storage FreeMap) :=
    fun sb st h => ends_ofExcept (fun _ _ => h) fun _ _ => h
  unfold recognise
  refine Preserves.bind (fun st h => (mirrors_readView h _ 0 0).mono (fun _ _ h => h.1) fun _ _ h => h)
    fun sb => ?_
  extract_lets believe
  have believed : Preserves (Storage.Mirrors c) (believe ⟨⟩) :=
    (Storage.mirrors_note _).bind fun _ => (create sb).bind fun _ => preserves_pure _
  refine preserves_ite ?_ believed
  exact (Storage.mirrors_note _).bind fun _ => (preserves_fail _).bind fun _ => believed

/-- Whatever stands on the disk, it is left as it is by opening it. -/
theorem mirrors_open (disk : Disk) (log : Log) (capacity : Nat) :
    match «open» disk log capacity with
    | .ok v => v.Mirrors disk.content
    | .error aborted => disk.content.Alike aborted.disk.content := by
  unfold «open» start
  cases e : Cache.create capacity with
  | error violation => exact .refl _
  | ok cache =>
    have recognised := mirrors_recognise _ (Storage.mirrors_of_create e disk log)
    simp only
    cases run : recognise ⟨disk, cache, log⟩ with
    | ok r st =>
      exact ⟨recognised.ok run, fun _ h => absurd h (Nat.not_lt_zero _), nofun⟩
    | error cause st => exact (recognised.error run).disk

/-! ## Reading -/

theorem sees_getNode (j : NodeId) : Preserves (Sees c id) (getNode j) :=
  preserves_get.bind fun _ => preserves_pure _

theorem sees_readAt (j : NodeId) (offset len : Nat) : Preserves (Sees c id) (readAt j offset len) :=
  (sees_getNode j).bind fun _ => sees_onStorage (Storage.readable_mirrors.readPieces _ _ _).left.preserves

theorem sees_mappedSectors (j : NodeId) : Preserves (Sees c id) (mappedSectors j) :=
  (sees_getNode j).bind fun n => sees_onStorage (Storage.readable_mirrors.mapped n.record).left.preserves

theorem mirrors_freeCount : Preserves (Mirrors c) freeCount :=
  mirrors_onSpace Storage.readable_mirrors.freeCount.left.preserves

/-! ## Looking for a free sector -/

theorem mirrors_allocateInode {m : FreeMap} {w : Prop} {n : Nat} (h : v.Mirrors c) (hp : m.Placed n)
    (allocator : v.space.allocator = .bitmap m) (good : v.space.storage.Good w n []) (works : w) :
    Ends allocateInode v (fun _ _ => True) fun _ v' => v'.Mirrors c := by
  have allocating : Ends (Space.allocate 1) v.space (fun _ _ => True)
      fun _ sp' => sp'.storage.Mirrors c := by
    unfold Space.allocate
    refine ends_get_bind ?_
    rw [allocator]
    exact (Space.ends_onStorage (FreeMap.mirrors_allocate h.storage hp good works)).mono
      (fun _ _ _ => trivial) fun _ _ h' => h'.1
  unfold allocateInode
  exact (ends_onSpace allocating).bind (fun _ _ _ => ends_pure trivial)
    fun _ _ h' => h'.2 ▸ h.respace h'.1

/-! ## Closing -/

/-- The record that is written is the one that stands there. -/
theorem sees_persist (h : v.Sees c id) :
    Ends (persist id) v (fun _ v' => v'.Sees c id) fun _ v' => v'.Sees c id := by
  obtain ⟨kept, has, record⟩ := h.node id h.inside
  have sees := h.modifyNode (f := fun n => { n with record := n.currentRecord }) ⟨kept, has, record⟩
  refine ends_modifyNode (ends_getNode ?_)
  rw [node_withNode h.inside, if_pos rfl]
  have saving : Preserves (Sees c id) _ := sees_onStorage (mirrors_replaceSector has)
  rw [← record] at saving
  exact saving _ sees

theorem sees_closeInode (h : v.Sees c id) :
    Ends (closeInode id) v (fun _ v' => v'.Sees c id) fun _ v' => v'.Sees c id := by
  unfold closeInode
  refine (sees_persist h).bind (fun _ v₁ h₁ => ?_) fun _ _ h => h
  obtain ⟨kept, has, record⟩ := h₁.node id h₁.inside
  refine ends_getNode ?_
  extract_lets close
  have closing : Ends (close ⟨⟩) v₁ (fun _ v' => v'.Sees c id) fun _ v' => v'.Sees c id := by
    have h₂ := h₁.modifyNode (f := fun n => { n with opens := n.opens - 1 }) ⟨kept, has, record⟩
    refine ends_modifyNode ?_
    split
    · exact ends_pure h₂
    -- a node that was only read is not removed
    rw [kept]
    refine ends_modify_bind ?_
    exact ((sees_onStorage (mirrors_flushSector _)).bind fun _ => sees_note _) _ (h₂.eraseEntry _)
  split
  · exact ends_throw h₁
  · exact closing

end Volume

end SectorVolume
