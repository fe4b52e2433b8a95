import SectorVolume.Proofs.Volume.Setup
import SectorVolume.Proofs.Volume.Writing

/-!
# Requests to a volume

A client of a volume only opens live inodes, creates inodes at sectors that were handed out for
them, and uses handles that it has not closed. `Volume.Reachable` are the states that such requests
lead to from a new volume, in any order and with any transfers failing on the way. Each request
keeps the invariant, and has an effect on the byte strings of the files that the invariant lets us
tell.
-/

namespace SectorVolume

open SectorVolume.Action

/-- A request to a volume. -/
inductive Request where
  | allocateInode
  | createInode (sector : SectorId) (length : Nat) (isDirectory : Bool)
  | openInode (sector : SectorId)
  | reopen (id : NodeId)
  | readAt (id : NodeId) (offset len : Nat)
  | writeAt (id : NodeId) (bytes : Bytes) (offset : Nat)
  | setLength (id : NodeId) (length : Nat)
  | remove (id : NodeId)
  | denyWrites (id : NodeId)
  | allowWrites (id : NodeId)
  | closeInode (id : NodeId)
  | mappedSectors (id : NodeId)
  | flush
  | close
  | freeCount

namespace Request

/-- What is answered to a request. -/
def Answer : Request → Type
  | allocateInode => SectorId
  | createInode .. => Unit
  | openInode _ => NodeId
  | reopen _ => Unit
  | readAt .. => Bytes
  | writeAt .. => Nat
  | setLength .. => Unit
  | remove _ => Unit
  | denyWrites _ => Unit
  | allowWrites _ => Unit
  | closeInode _ => Unit
  | mappedSectors _ => MappedSectors
  | flush => Nat
  | close => Unit
  | freeCount => Nat

/-- Carries a request out. -/
def perform : (r : Request) → Action Volume r.Answer
  | allocateInode => Volume.allocateInode
  | createInode sector length isDirectory => Volume.createInode sector length isDirectory
  | openInode sector => Volume.openInode sector
  | reopen id => Volume.reopen id
  | readAt id offset len => Volume.readAt id offset len
  | writeAt id bytes offset => Volume.writeAt id bytes offset
  | setLength id length => Volume.setLength id length
  | remove id => Volume.remove id
  | denyWrites id => Volume.denyWrites id
  | allowWrites id => Volume.allowWrites id
  | closeInode id => Volume.closeInode id
  | mappedSectors id => Volume.mappedSectors id
  | flush => Volume.flush
  | close => Volume.close
  | freeCount => Volume.freeCount

/-- Whether a client may make a request. -/
def Allowed (c : Client) : Request → Prop
  | createInode sector .. => sector ∈ c.blank
  | openInode sector => sector ∈ c.live
  | reopen id | readAt id .. | writeAt id .. | setLength id _ | remove id | denyWrites id
  | allowWrites id | closeInode id | mappedSectors id => id ∈ c.handles.ids
  | allocateInode | flush | close | freeCount => True

/-- The client after a request was answered and led to the volume `v`. -/
def answered (c : Client) (v : Volume) : (r : Request) → r.Answer → Client
  | allocateInode, sector => { c with blank := sector :: c.blank }
  | createInode sector .., _ => { c with blank := c.blank.erase sector, live := sector :: c.live }
  | openInode _, id => { c with handles := c.handles.add id }
  | reopen id, _ => { c with handles := c.handles.add id }
  | remove id, _ => { c with handles := c.handles.remove id }
  | closeInode id, _ => c.closed id (v.node id).sector
  | readAt .., _ | writeAt .., _ | setLength .., _ | denyWrites _, _ | allowWrites _, _
  | mappedSectors _, _ | flush, _ | close, _ | freeCount, _ => c

/-- The client after a request failed and led to the volume `v`. -/
def failed (c : Client) (v : Volume) : Request → Client
  | closeInode id => c.interrupted id (v.node id)
  | _ => c

/-- A request that is answered loses no handle. -/
theorem lost_answered (r : Request) (c : Client) (v : Volume) (a : r.Answer) :
    (r.answered c v a).handles.lost = c.handles.lost := by
  cases r with
  | closeInode id =>
    show (c.closed ..).handles.lost = _
    rw [Client.handles_closed]
    rfl
  | _ => rfl

/-- The inode whose bytes a request may change. -/
def target (v : Volume) : Request → Option SectorId
  | createInode sector .. => some sector
  | writeAt id .. | setLength id _ => some (v.node id).sector
  | _ => none

/-- The sectors that the allocator hands out for a file that is created. -/
def drawn (v : Volume) : Request → List SectorId
  | createInode _ length _ => v.space.drawn (totalSectors (dataSectors length))
  | _ => []

/-- The answer to a request, and what it makes of the bytes of its target. -/
def Effect (v v' : Volume) : (r : Request) → r.Answer → Prop
  | allocateInode, sector =>
    v.space.stock.free sector ∧ v'.space.stock.content sector = v.space.stock.content sector
  | createInode sector length _, _ => v'.bytes sector = Array.replicate length 0 ∧
    (v'.mappedOf sector).data.length = dataSectors length
  | openInode sector, id => v.Shows sector (v'.node id)
  | readAt id offset len, bytes =>
    bytes = (v.bytes (v.node id).sector).extract offset (offset + len)
  | writeAt id bytes offset, (written : Nat) =>
    written ≤ bytes.size ∧ v'.bytes (v.node id).sector =
      if written = 0 then v.bytes (v.node id).sector
      else (v.bytes (v.node id).sector).overwritten offset (bytes.extract 0 written)
  | setLength id length, _ =>
    length ≤ 512 * (v.mappedOf (v.node id).sector).data.length ∧
      v'.bytes (v.node id).sector = (v.bytes (v.node id).sector).resized length
  | mappedSectors id, mapped => mapped = v.mappedOf (v.node id).sector
  | flush, _ | close, _ => v'.space.storage.Flushed
  | freeCount, count => ∀ m, v.space.allocator = .bitmap m → count = m.clearBits v.space.storage.logical
  | closeInode id, _ =>
    ((v.node id).opens ≤ 1 → (v.node id).removed = true → v'.Vacated (v.node id).sector) ∧
      ((v.node id).opens ≤ 1 → (v.node id).removed = false →
        v'.Shelved (v.node id).sector (v.node id).currentRecord)
  | denyWrites id, _ => (v'.node id).denials = (v.node id).denials + 1
  | allowWrites id, _ => (v'.node id).denials + 1 = (v.node id).denials
  | reopen _, _ | remove _, _ => True

/-- A sector count was asked for that there is not. -/
def Exhausted (v v' : Volume) (count : Nat) (e : Failure) : Prop :=
  e = .fault (.exhausted count) ∧ v.space.stock.Lacks v'.space.stock count

/-- The reasons not to answer a request while all transfers succeed. -/
def Refused (v v' : Volume) : Request → Failure → Prop
  | allocateInode, e => Exhausted v v' 1 e
  | createInode _ length _, e => Exhausted v v' (totalSectors (dataSectors length)) e ∨
    maxFileSize < length ∧ e = .fault (.sizeLimit length maxFileSize)
  | setLength id length, e =>
    512 * (v.mappedOf (v.node id).sector).data.length < length ∧ ∃ limit,
      e = .fault (.sizeLimit length limit)
  | denyWrites _, e => e = .violation .deniedBeyondOpeners
  | allowWrites _, e => e = .violation .deniedBeyondOpeners ∨ e = .violation .allowedWithoutDenial
  | _, _ => False

/-! ## What a request leads to -/

section

variable [Promise] {floor : Nat} {v : Volume} {c : Client} {trees : SectorId → Tree}

/-- What a request leads to, whether it was answered or failed: bytes changed of its target only, or
of what is not live any more, and what had been handed out for a new file may have been written. -/
structure Moves (floor : Nat) (v : Volume) (c : Client) (r : Request) (v' : Volume) (c' : Client) : Prop
    extends v.Keeps floor c (fun s => r.target v = some s ∨ s ∉ c'.live) v' c' where
  spared : v.Spared c (· ∈ r.drawn v) v' c'

/-- A request failed: it was refused, and no byte string changed, or a transfer failed. -/
def Fails (floor : Nat) (v : Volume) (c : Client) (r : Request) (e : Failure) (v' : Volume) : Prop :=
  v.Leads floor c Stock.nowhere v' (r.failed c v') ∧ r.Refused v v' e ∨
    ∃ cause, e = .fault cause ∧ r.Moves floor v c v' (r.failed c v') ∧
      Stock.Broke v.space.stock v'.space.stock cause

/-- A request that keeps the rules of use leads from one good state to another. -/
theorem ends_perform (h : v.Inv floor c trees) (r : Request) (allowed : r.Allowed c) :
    Ends r.perform v
      (fun a v' => v.Leads floor c (fun s => r.target v = some s ∨ s ∉ (r.answered c v' a).live) v'
        (r.answered c v' a) ∧ r.Effect v v' a)
      (fun e v' => r.Fails floor v c e v') := by
  have stops : ∀ {X : SectorId → Prop} {r : Request} {e : Failure} {v' : Volume},
      (∀ s, X s → r.target v = some s ∨ s ∉ (r.failed c v').live) →
      (∃ cause, e = .fault cause ∧ v.Breaks floor c X cause v' (r.failed c v')) →
        r.Fails floor v c e v' := by
    rintro X r e v' target ⟨cause, rfl, leads, broke⟩
    exact .inr ⟨cause, rfl, ⟨leads.toKeeps.weaken target, leads.spared.mono⟩, broke⟩
  have breaks : ∀ {r : Request} {e : Failure} {v' : Volume},
      (∃ cause, e = .fault cause ∧ v.Breaks floor c Stock.nowhere cause v' (r.failed c v')) →
        r.Fails floor v c e v' := fun h' => stops (fun _ no => no.elim) h'
  have target : ∀ {t : SectorId} {r : Request} {v' : Volume}, r.target v = some t →
      ∀ s, s = t → r.target v = some s ∨ s ∉ (r.failed c v').live := by
    rintro t r v' target s rfl
    exact .inl target
  cases r with
  | allocateInode =>
    refine (Volume.meets_allocateInode h).ends.mono ?_ ?_
    · intro s v' h'
      exact ⟨h'.1.mono, h'.2⟩
    · rintro _ v' ⟨cause, rfl, leads, ⟨rfl, lacks⟩ | ⟨broke, -⟩⟩
      · exact .inl ⟨leads, rfl, lacks⟩
      · exact breaks ⟨cause, rfl, leads, broke⟩
  | createInode s length isDirectory =>
    refine (Volume.meets_createInode h allowed length isDirectory).ends.mono ?_ ?_
    · intro _ v' h'
      exact ⟨h'.1.mono, h'.2.2⟩
    · rintro _ v' ⟨cause, rfl, ⟨leads, ⟨large, rfl⟩ | ⟨rfl, lacks⟩⟩ | ⟨keeps, broke, spared⟩, -⟩
      · exact .inl ⟨leads, .inr ⟨large, rfl⟩⟩
      · exact .inl ⟨leads, .inl ⟨rfl, lacks⟩⟩
      · exact .inr ⟨cause, rfl, ⟨keeps.weaken fun _ no => no.elim, spared⟩, broke⟩
  | openInode s =>
    refine (Volume.meets_openInode h allowed).ends.mono ?_ fun _ _ h' => breaks h'
    intro id v' h'
    exact ⟨h'.1.mono, h'.2⟩
  | reopen id =>
    refine (Volume.meets_reopen h (h.opened allowed) (f := fun _ _ => False)).ends.mono ?_ ?_
    · intro _ v' h'
      exact ⟨h'.mono, trivial⟩
    · rintro _ v' ⟨cause, -, no⟩
      exact no.elim
  | readAt id offset len =>
    refine (Volume.meets_readAt h (h.opened allowed) offset len).ends.mono ?_ fun _ _ h' => breaks h'
    intro bytes v' h'
    exact ⟨h'.1.mono, h'.2⟩
  | writeAt id bytes offset =>
    refine (Volume.meets_writeAt h (h.opened allowed) bytes offset).ends.mono ?_
      fun _ _ ⟨cause, e, h'⟩ => stops (target rfl) ⟨cause, e, h'.1⟩
    intro written v' h'
    refine ⟨h'.1.weaken fun s e => .inl (congrArg some e.symm), ?_, h'.2.1.2⟩
    have le := h'.2.1.1
    omega
  | setLength id length =>
    refine (Volume.meets_setLength h (h.opened allowed) length).ends.mono ?_ ?_
    · intro _ v' h'
      exact ⟨h'.1.weaken fun s e => .inl (congrArg some e.symm), h'.2.1, h'.2.2.1⟩
    · rintro _ v' ⟨cause, rfl, ⟨leads, large, limit, rfl⟩ | broke⟩
      · exact .inl ⟨leads, large, limit, rfl⟩
      · exact stops (target rfl) ⟨cause, rfl, broke⟩
  | remove id =>
    refine (Volume.meets_remove h (h.opened allowed) (f := fun _ _ => False)).ends.mono ?_ ?_
    · intro _ v' h'
      exact ⟨h'.mono, trivial⟩
    · rintro _ v' ⟨cause, -, no⟩
      exact no.elim
  | denyWrites id =>
    refine (Volume.ends_denyWrites h (h.opened allowed)).mono ?_ ?_
    · intro _ v' h'
      exact ⟨h'.1.mono, h'.2.1⟩
    · intro e v' h'
      exact .inl ⟨h'.1, h'.2.1⟩
  | allowWrites id =>
    refine (Volume.ends_allowWrites h (h.opened allowed)).mono ?_ ?_
    · intro _ v' h'
      exact ⟨h'.1.mono, h'.2⟩
    · intro e v' h'
      exact .inl ⟨h'.1, h'.2.imp And.left And.left⟩
  | closeInode id =>
    have o := h.opened allowed
    refine (Volume.meets_closeInode h o allowed).ends.mono ?_
      fun _ _ h' => stops (fun _ dead => .inr dead) h'
    rintro _ v' ⟨leads, vacated⟩
    rw [← leads.follows.sector id o.inside] at leads
    exact ⟨leads.weaken fun s dead => .inr dead, vacated⟩
  | mappedSectors id =>
    refine (Volume.meets_mappedSectors h (h.opened allowed)).ends.mono ?_ fun _ _ h' => breaks h'
    intro m v' h'
    exact ⟨h'.1.mono, h'.2⟩
  | flush =>
    refine (Volume.meets_flush h).ends.mono ?_ fun _ _ h' => breaks h'
    intro _ v' h'
    exact ⟨h'.1.mono, h'.2⟩
  | close =>
    refine (Volume.meets_close h).ends.mono ?_ fun _ _ h' => breaks h'
    intro _ v' h'
    exact ⟨h'.1.mono, h'.2⟩
  | freeCount =>
    refine (Volume.meets_freeCount h).ends.mono ?_ fun _ _ h' => breaks h'
    intro _ v' h'
    exact ⟨h'.1.mono, h'.2⟩

end

end Request

namespace Volume

/-- The states of a volume and its client that requests lead to from a new volume on `disk`. -/
inductive Reachable (disk : Disk) (log : Log) (total : UInt32) (capacity : Nat) (time : Int64) :
    Volume → Client → Prop where
  | format {v : Volume} (h : format disk log total capacity time = .ok v) :
    Reachable disk log total capacity time v .empty
  | answered {v v' : Volume} {c : Client} {r : Request} {a : r.Answer}
    (h : Reachable disk log total capacity time v c) (allowed : r.Allowed c)
    (e : r.perform v = .ok a v') : Reachable disk log total capacity time v' (r.answered c v' a)
  | failed {v v' : Volume} {c : Client} {r : Request} {e' : Failure}
    (h : Reachable disk log total capacity time v c) (allowed : r.Allowed c)
    (e : r.perform v = .error e' v') : Reachable disk log total capacity time v' (r.failed c v')

end Volume

end SectorVolume
