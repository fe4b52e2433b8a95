import SectorVolume.Proofs.Volume.Remount
import SectorVolume.Proofs.Volume.Recognition

/-!
# Reading what was damaged

A record may name any sectors: sectors of other files, index blocks in a circle, sectors beyond the
end of the disk. Reading takes it at its word. Each byte comes from the sector that a lookup finds
for it, a hole is read as zeros, and nothing is changed by it; only a transfer can fail. This is so
whatever stands on the disk and whatever was asked of the volume before.
-/

namespace SectorVolume

open SectorVolume.Action

namespace Record

variable {L : SectorId → Sector} {r : Record} {st : Storage} {w : Prop} {n : Nat}

/-- Byte `i` of a file, for the content `L`: the byte of the sector that the record has for it. -/
def byteAt (L : SectorId → Sector) (r : Record) (i : Nat) : UInt8 :=
  match r.sectorIn L i with
  | some id => getElem (L id) (i % 512) (Sector.mod_lt i)
  | none => 0

theorem byteAt_of_some {i : Nat} {id : SectorId} (h : r.sectorIn L i = some id) :
    r.byteAt L i = getElem (L id) (i % 512) (Sector.mod_lt i) := by
  unfold byteAt
  rw [h]

theorem byteAt_of_none {i : Nat} (h : r.sectorIn L i = none) : r.byteAt L i = 0 := by
  unfold byteAt
  rw [h]

/-- The bytes of one sector of the file are found in one sector. -/
theorem sectorIn_congr {i j : Nat} (same : i / 512 = j / 512) :
    r.sectorIn L i = r.sectorIn L j := by
  have place : locate i = locate j := congrArg Position.ofIndex same
  unfold sectorIn
  rw [place]

theorem meets_readPiece (h : st.Good w wordRange32 []) {p : Piece}
    (inside : p.offset + p.size ≤ 512) :
    Meets (Volume.readPiece r p) st
      (fun b st' => Storage.Same w wordRange32 [] st st' ∧
        b = span (r.byteAt st.logical) p.start p.size)
      (Storage.Breaks w wordRange32 st) := by
  unfold Volume.readPiece
  refine (meets_lookup_within h (indexWithin_words _ r) p.start).bind (fun found st₁ h₁ => ?_)
    fun _ _ h => h
  obtain ⟨same, rfl⟩ := h₁
  cases e : r.sectorIn st.logical p.start with
  | none =>
    refine meets_pure ⟨same, replicate_eq_span inside fun i here => ?_⟩
    exact byteAt_of_none ((sectorIn_congr here).trans e)
  | some id =>
    refine (Storage.meets_read same.good id.toNat_lt inside).mono (fun b st₂ h₂ => ?_)
      fun _ _ h => same.breaks h
    refine ⟨same.trans h₂.1, ?_⟩
    rw [h₂.2, same.logical]
    exact Sector.slice_eq_span inside fun i here => byteAt_of_some ((sectorIn_congr here).trans e)

/-- Reading the pieces of a range yields the bytes of the range. -/
theorem meets_readPieces (h : st.Good w wordRange32 []) (bytes : Bytes) (start len : Nat) :
    Meets (Volume.readPieces r bytes (pieces start len)) st
      (fun b st' => Storage.Same w wordRange32 [] st st' ∧
        b = bytes ++ span (r.byteAt st.logical) start len)
      (Storage.Breaks w wordRange32 st) := by
  induction len using Nat.strongRecOn generalizing st bytes start with | ind len ih
  by_cases none : len = 0
  · rw [none, pieces_zero]
    refine meets_pure ⟨h.same, ?_⟩
    rw [span_zero, Array.append_empty]
  · obtain ⟨size, pos, le, inside, e⟩ := pieces_of_pos start none
    rw [e]
    unfold Volume.readPieces
    refine (meets_readPiece (p := ⟨start, size⟩) h inside).bind (fun b st₁ h₁ => ?_)
      fun _ _ h => h
    obtain ⟨same, rfl⟩ := h₁
    refine (ih _ (by omega) same.good _ _).mono (fun b st₂ h₂ => ?_) fun _ _ h => same.breaks h
    refine ⟨same.trans h₂.1, ?_⟩
    rw [h₂.2, same.logical, Array.append_assoc, span_append, Nat.add_sub_cancel' le]

end Record

namespace Volume

variable {disk : Disk} {log : Log} {capacity : Nat} {v v' : Volume}

/-! ## Volumes of any kind -/

/-- The volumes that somebody may have to do with: whatever was on the disk that was opened or set
up, and whatever was asked of the volume since then. -/
inductive Visited (disk : Disk) (log : Log) (capacity : Nat) : Volume → Prop where
  | opened {v : Volume} (h : «open» disk log capacity = .ok v) : Visited disk log capacity v
  | formatted {total : UInt32} {time : Int64} {v : Volume}
    (h : format disk log total capacity time = .ok v) : Visited disk log capacity v
  | answered {v v' : Volume} {r : Request} {a : r.Answer} (h : Visited disk log capacity v)
    (e : r.perform v = .ok a v') : Visited disk log capacity v'
  | failed {v v' : Volume} {r : Request} {e' : Failure} (h : Visited disk log capacity v)
    (e : r.perform v = .error e' v') : Visited disk log capacity v'

theorem intact_perform (r : Request) : Preserves (fun v => v.space.Intact) r.perform :=
  (couples_perform Storage.hidden_sameContent r).left.preserves

theorem intact_of_open (h : «open» disk log capacity = .ok v) : v.space.Intact := by
  have cases := start_cases disk log capacity
    (d := fun _ st => st.Intact) (f := fun _ _ => True) (x := recognise) fun cache e =>
      (Storage.ends_recognise (Storage.intact_of_create e disk log) (by decide) rfl).mono
        (fun _ _ h => h.2.2.good) fun _ _ _ => trivial
  rw [show start disk log capacity recognise = .ok v from h] at cases
  obtain ⟨-, r, st, intact, rfl⟩ := cases
  exact intact

/-- The cache stays well-formed and true to the disk. -/
theorem Visited.intact (h : Visited disk log capacity v) : v.space.Intact := by
  induction h with
  | opened e => exact intact_of_open e
  | @formatted total time _ e =>
    have asked : Asked disk log total capacity time _ := .format e
    exact asked.labelled.1
  | answered _ e ih => exact (intact_perform _ _ ih).ok e
  | failed _ e ih => exact (intact_perform _ _ ih).error e

/-! ## Reading -/

/-- From `v` to `v'` only the cache and the disk changed, and the content of no sector did. -/
structure Looked (v v' : Volume) : Prop where
  content : v'.space.storage.logical = v.space.storage.logical
  rest : v' = { v with space := ⟨v'.space.storage, v.space.allocator⟩ }

/-- A transfer failed, and apart from that something was only looked at. -/
structure Missed (v : Volume) (e : Failure) (v' : Volume) : Prop where
  device : ∃ cause, e = .fault (.device cause)
  failures : v.space.storage.disk.failures < v'.space.storage.disk.failures
  looked : v.Looked v'

/-- What only looks at the storage only looks at the volume. -/
theorem ends_looked {α : Type} {x : Action Storage α} {d : α → Prop}
    (hx : Meets x v.space.storage
      (fun a st => Storage.Same False wordRange32 [] v.space.storage st ∧ d a)
      (Storage.Breaks False wordRange32 v.space.storage)) :
    Ends (onSpace (Space.onStorage x)) v (fun a v' => d a ∧ v.Looked v') v.Missed := by
  have looked : ∀ {v' : Volume}, Storage.Same False wordRange32 [] v.space.storage v'.space.storage →
      v'.space.allocator = v.space.allocator → v' = { v with space := v'.space } → v.Looked v' := by
    intro v' same allocator rest
    refine ⟨same.logical, rest.trans ?_⟩
    rw [← allocator]
  refine (ends_onSpace (Space.meets_lift hx).ends).mono ?_ ?_
  · rintro a v' ⟨⟨⟨same, ha⟩, allocator⟩, rest⟩
    exact ⟨ha, looked same allocator rest⟩
  · rintro _ v' ⟨⟨c, rfl, ⟨⟨cause, rfl⟩, -, failed, same⟩, allocator⟩, rest⟩
    exact ⟨⟨cause, rfl⟩, failed, looked same allocator rest⟩

/-- Reading the file of node `id` takes the record at its word. The bytes of a range are read up to
the end of the file, each of them from the sector that a lookup finds for it, and as zero if it
finds none. -/
structure Legible (v : Volume) (id : NodeId) : Prop where
  read : ∀ offset len, Ends (readAt id offset len) v
    (fun bytes v' => bytes = span ((v.node id).record.byteAt v.space.storage.logical) offset
      (min len ((v.node id).length - offset)) ∧ v.Looked v') v.Missed
  lookup : ∀ offset, Ends (onSpace (Space.onStorage ((v.node id).record.lookup offset))) v
    (fun found v' => found = (v.node id).record.sectorIn v.space.storage.logical offset ∧
      v.Looked v') v.Missed
  mapped : Ends (mappedSectors id) v
    (fun mapped v' => mapped = (v.node id).record.mappedIn v.space.storage.logical ∧
      v.Looked v') v.Missed

/-- Whatever the records of a volume say, every file can be read as far as the disk lets it. -/
theorem Visited.legible (h : Visited disk log capacity v) (id : NodeId) : v.Legible id := by
  have good : v.space.storage.Good False wordRange32 [] := h.intact
  have within := Record.indexWithin_words v.space.storage.logical (v.node id).record
  refine ⟨fun offset len => ?_, fun offset => ?_, ?_⟩
  · have reading := Record.meets_readPieces (r := (v.node id).record) good #[] offset
      (min len ((v.node id).length - offset))
    rw [Array.empty_append] at reading
    exact ends_getNode (ends_looked reading)
  · exact ends_looked (Record.meets_lookup_within good within offset)
  · exact ends_getNode (ends_looked (Record.meets_mapped_within good within))

/-- A record that names its own sector 2: as data, as index block and as top block. Its second entry
leads beyond the end of a small disk, and the length says that there is more. -/
def cyclicRecord : Record :=
  { Record.make 0xffffffff false with
    direct := listed 12 [2, 99], indirect := 2, doubleIndirect := 2 }

/-- A memory of 16 sectors with a superblock and that record. -/
def cyclicMemory : Disk :=
  ((Disk.memory 16).overwrite 0 ((Superblock.make 16 1 1 0).store Sector.zero)).overwrite 2
    cyclicRecord.toSector

/-- The memory is taken for a volume, and the record for an inode. -/
theorem visited_cyclic : ∃ v, Visited cyclicMemory {} 4 v ∧ v.node 0 = Node.ofRecord 2 cyclicRecord := by
  let : Promise := ⟨True, 16⟩
  have works : cyclicMemory.Working 16 := ⟨nofun, by decide, rfl⟩
  have label : Superblock.ofSector (cyclicMemory.sector 0) = Superblock.ofTotal 16 0 := by
    unfold cyclicMemory
    rw [Disk.sector, Disk.overwrite, Content.sector_put_of_ne _ _ (by decide), Disk.overwrite,
      Content.sector_put_self, Superblock.ofSector_store]
    rfl
  have record : Record.ofSector (cyclicMemory.sector 2) = cyclicRecord := by
    unfold cyclicMemory
    rw [Disk.sector, Disk.overwrite, Content.sector_put_self, Record.ofSector_toSector]
  obtain ⟨cache, e⟩ := Cache.fits_iff.1 (show Cache.Fits 4 by decide)
  have cases := open_cases {} e (fun _ => works) (by decide) label
  cases opened : «open» cyclicMemory {} 4 with
  | error aborted =>
    rw [opened] at cases
    exact absurd trivial cases.2.2
  | ok v =>
    rw [opened] at cases
    have mounted : v.Mounted cyclicMemory 16 0 := cases
    have absent : v.table.lookup 2 = none := by
      rw [mounted.table]
      rfl
    have content : Record.ofSector (v.space.storage.logical 2) = cyclicRecord := by
      rw [mounted.logical]
      exact record
    have magic : v.magicAt 2 = recordMagic := by
      unfold magicAt
      rw [content]
      rfl
    have opening := (meets_openSector (s := 2) mounted.storage fun _ => by decide).ends
    cases made : openInode 2 v with
    | error e v' =>
      obtain ⟨_, rfl, idles, rejects⟩ := opening.error made
      cases rejects with
      | outside label outside =>
        cases mounted.superblock.symm.trans label
        exact absurd outside (by decide)
      | closed _ entry _ =>
        rw [absent] at entry
        cases entry
      | invalid _ _ invalid => exact absurd magic invalid
      | broke _ _ broke =>
        have clean : v.space.storage.disk.failures = 0 := (mounted.storage.working trivial).clean
        have clean' : v'.space.storage.disk.failures = 0 := (idles.intact.working trivial).clean
        have failed : v.space.storage.disk.failures < v'.space.storage.disk.failures := broke.2
        omega
    | ok id v' =>
      refine ⟨v', .answered (r := .openInode 2) (.opened opened) made, ?_⟩
      cases opening.ok made with
      | shared _ entry _ =>
        rw [absent] at entry
        cases entry
      | new _ _ _ idles =>
        have first : v.nodes.size = 0 := by
          rw [mounted.nodes]
          rfl
        rw [idles.rest]
        refine (node_opened v 2 0).trans ?_
        rw [if_pos first.symm, ← content, recordOf_of_none absent]

/-- That file can be read, although following its entries leads back to it. -/
theorem legible_cyclic : ∃ v, Visited cyclicMemory {} 4 v ∧
    v.node 0 = Node.ofRecord 2 cyclicRecord ∧ v.Legible 0 := by
  obtain ⟨v, visited, node⟩ := visited_cyclic
  exact ⟨v, visited, node, visited.legible 0⟩

end Volume

end SectorVolume
