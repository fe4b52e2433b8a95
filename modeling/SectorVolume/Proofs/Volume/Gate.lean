import SectorVolume.Proofs.Volume.Turns

/-!
# Files that are closed to writes

While writes to a node are denied no request changes the bytes of its file, except one: the length
can still be set, which cuts bytes off or lets zeros appear. All other requests, whether they are
answered or fail, leave the file as it is.
-/

namespace SectorVolume

open SectorVolume.Action

namespace Volume

variable {disk : Disk} {log : Log} {total : UInt32} {capacity : Nat} {time : Int64}
  {v v' : Volume} {c c' : Client} {r : Request} {s : SectorId} {id : NodeId} {floor : Nat}

/-- Somebody has node `id` open, and writes to it are denied. -/
structure Gated (v : Volume) (id : NodeId) : Prop where
  denied : 0 < (v.node id).denials
  opens : 0 < (v.node id).opens

/-- A request leaves node `id` open and closed to writes, and does not set its length. -/
def Respects (id : NodeId) (r : Request) (_ : Volume) (_ : Client) (v' : Volume) (_ : Client) : Prop :=
  (∀ length, r ≠ .setLength id length) ∧ v'.Gated id

section

variable [Promise] {trees : SectorId → Tree}

/-- A write that is denied ends with nothing written. -/
theorem meets_writeAt_denied (intact : v.Intact) (denied : 0 < (v.node id).denials)
    (bytes : Bytes) (offset : Nat) :
    Meets (writeAt id bytes offset) v (fun n v' => n = 0 ∧ v.Idles v') fun _ _ => False := by
  unfold writeAt
  refine meets_getNode ?_
  rw [if_pos denied]
  exact (meets_note_idles intact _ (f := fun _ _ => False)).bind
    (fun _ _ idles => meets_pure ⟨rfl, idles⟩) fun _ _ no => no.elim

/-- The requests that are about the bytes of an open file. -/
theorem Inv.targeting (h : v.Inv floor c trees) (o : v.Opened c id s) (tried : r.Tried c)
    (target : r.target v = some s) :
    (∃ bytes offset, r = .writeAt id bytes offset) ∨ ∃ length, r = .setLength id length := by
  have same : ∀ {j}, j ∈ c.handles.ids → (v.node j).sector = s → j = id := by
    intro j hj here
    have entry := (h.opened hj).entry
    rw [here] at entry
    exact Option.some.inj (entry.symm.trans o.entry)
  cases r with
  | createInode sector =>
    cases target
    have blank : s ∈ c.blank := tried.resolve_right nofun
    exact absurd o.live (h.not_live_of_blank blank).1
  | writeAt j bytes offset =>
    cases same (tried.resolve_right nofun) (Option.some.inj target)
    exact .inl ⟨bytes, offset, rfl⟩
  | setLength j length =>
    cases same (tried.resolve_right nofun) (Option.some.inj target)
    exact .inr ⟨length, rfl⟩
  | _ => cases target

/-- No step but one that sets the length changes the bytes of a file that is closed to writes. -/
theorem Known.bytes_gated (h : v.Known floor total time c) (gated : v.Gated id)
    (step : r.Step v c v' c') (respects : Respects id r v c v' c') :
    v'.bytes (v.node id).sector = v.bytes (v.node id).sector := by
  obtain ⟨_, inv⟩ := h.inv
  have moves := h.moves step
  obtain ⟨_, inv'⟩ := moves.inv
  have opened := inv.tabled.opened gated.opens
  have live' : (v.node id).sector ∈ c'.live := by
    rw [← moves.follows.sector id opened.inside]
    exact (inv'.tabled.opened respects.2.opens).live
  by_cases target : r.target v = some (v.node id).sector
  · have tried : r.Tried c := by
      cases step with
      | answered allowed _ => exact .inl allowed
      | failed tried _ => exact tried
    obtain ⟨bytes, offset, rfl⟩ | ⟨length, rfl⟩ := inv.targeting opened tried target
    · have writing := (meets_writeAt_denied inv.space.storage gated.denied bytes offset).ends
      cases step with
      | answered _ e => exact (inv.idle (writing.ok e).2).bytes _ opened.live fun no => no
      | failed _ e =>
        obtain ⟨_, -, no⟩ := writing.error e
        exact no.elim
    · exact absurd rfl (respects.1 length)
  · exact moves.bytes _ opened.live (not_or.2 ⟨target, fun dead => dead live'⟩)

/-- Nor does a whole run of such steps. -/
theorem Steps.bytes_gated (h : v.Known floor total time c) (gated : v.Gated id)
    (steps : Steps (Respects id) v c v' c') :
    v'.Known floor total time c' ∧ v'.Gated id ∧ (v'.node id).sector = (v.node id).sector ∧
      v'.bytes (v.node id).sector = v.bytes (v.node id).sector := by
  induction steps with
  | refl => exact ⟨h, gated, rfl, rfl⟩
  | @tail v₁ v₂ c₁ c₂ r _ step respects ih =>
    obtain ⟨known, gated₁, here, same⟩ := ih
    obtain ⟨_, inv⟩ := known.inv
    have bytes := known.bytes_gated gated₁ step respects
    rw [here] at bytes
    refine ⟨known.step step, respects.2, ?_, bytes.trans same⟩
    have inside := (inv.tabled.opened gated₁.opens).inside
    exact ((known.moves step).follows.sector id inside).trans here

end

/-- As long as writes to an open node are denied and nobody sets its length, its file keeps its
length and its bytes whatever else is requested, and with whatever transfers failing. What is read
from it is what was in it in the beginning, unless a transfer fails. -/
theorem Steps.unchanged_while_denied (h : Probed disk log total capacity time v c) (gated : v.Gated id)
    (steps : Steps (Respects id) v c v' c') :
    (v'.node id).length = (v.node id).length ∧
      v'.bytes (v.node id).sector = v.bytes (v.node id).sector ∧
      ∀ offset len, Ends (readAt id offset len) v'
        (fun bytes _ => bytes = (v.bytes (v.node id).sector).extract offset (offset + len))
        fun e w => (∃ cause, e = .fault (.device cause)) ∧
          v'.space.storage.disk.failures < w.space.storage.disk.failures := by
  let : Promise := promise disk total
  have known := h.promised
  obtain ⟨known', gated', here, same⟩ := steps.bytes_gated known gated
  obtain ⟨_, inv⟩ := known.inv
  obtain ⟨_, inv'⟩ := known'.inv
  have opened := inv.tabled.opened gated.opens
  have opened' := inv'.tabled.opened gated'.opens
  rw [here] at opened'
  refine ⟨?_, same, fun offset len => ?_⟩
  · have sizes := congrArg Array.size same
    rwa [size_bytes, size_bytes, lengthOf_of_some opened'.entry, lengthOf_of_some opened.entry] at sizes
  · refine (meets_readAt inv' opened' offset len).ends.mono ?_ ?_
    · rintro bytes w ⟨-, rfl⟩
      rw [same]
    · rintro _ w ⟨_, rfl, -, ⟨cause, rfl⟩, failed⟩
      exact ⟨⟨cause, rfl⟩, failed⟩

/-- In a small memory a file of zeros is open by one handle, by which writes are denied. -/
theorem exists_gated_file : ∃ v s id,
    Probed (Disk.memory 16) {} 16 1 0 v ⟨[], [s], [], ⟨[id], [], []⟩⟩ ∧ v.Gated id ∧
      (v.node id).sector = s ∧ v.bytes s = Array.replicate 1000 0 := by
  let : Promise := memoryPromise
  obtain ⟨v, s, id, bytes, run⟩ := exists_orderly
  have hid : id ∈ [id] := List.mem_singleton_self id
  obtain ⟨v₁, e⟩ := (run False).denies Nat.one_pos
  have run₁ := (run False).answered (r := .denyWrites id) hid e .denied
  obtain ⟨_, inv⟩ := (run False).probed.inv_of_memory
  obtain ⟨_, inv₁⟩ := run₁.probed.inv_of_memory
  obtain ⟨leads, denials, -⟩ := (ends_denyWrites inv (inv.opened hid)).ok e
  refine ⟨v₁, s, id, run₁.probed, ⟨?_, inv₁.tabled.handles.opens_pos hid⟩, ?_, ?_⟩
  · exact Nat.lt_of_lt_of_eq (Nat.succ_pos _) denials.symm
  · exact List.mem_singleton.1 (inv₁.opened hid).live
  · exact (leads.bytes s (List.mem_singleton_self s) fun no => no).trans bytes

/-- A write to that file is answered and changes nothing. -/
theorem unchanged_of_denied_write : ∃ v c s id n v', Probed (Disk.memory 16) {} 16 1 0 v c ∧
    v.Gated id ∧ writeAt id #[1, 2, 3] 0 v = .ok n v' ∧ (v'.node id).length = (v.node id).length ∧
      v'.bytes s = Array.replicate 1000 0 := by
  let : Promise := memoryPromise
  obtain ⟨v, s, id, run, gated, here, bytes⟩ := exists_gated_file
  obtain ⟨_, inv⟩ := run.inv_of_memory
  have hid : id ∈ [id] := List.mem_singleton_self id
  have writing := (meets_writeAt_denied inv.space.storage gated.denied #[1, 2, 3] 0).ends
  cases e : writeAt id #[1, 2, 3] 0 v with
  | ok n v' =>
    have nodes : v'.nodes = v.nodes := by rw [(writing.ok e).2.rest]
    have gated' : v'.Gated id := by
      constructor
      all_goals
        unfold node
        rw [nodes]
      · exact gated.denied
      · exact gated.opens
    have allowed : (Request.writeAt id #[1, 2, 3] 0).Allowed ⟨[], [s], [], ⟨[id], [], []⟩⟩ := hid
    have steps := Steps.refl.tail (P := Respects id) (.answered allowed e) ⟨nofun, gated'⟩
    obtain ⟨length, same, -⟩ := steps.unchanged_while_denied run gated
    rw [here] at same
    exact ⟨v, _, s, id, n, v', run, gated, e, length, same.trans bytes⟩
  | error f v' =>
    obtain ⟨_, -, no⟩ := writing.error e
    exact no.elim

/-- But its length can be set to zero, while writes are denied before and afterwards. -/
theorem emptied_while_denied : ∃ v c id v', Probed (Disk.memory 16) {} 16 1 0 v c ∧
    id ∈ c.handles.ids ∧ v.Gated id ∧ setLength id 0 v = .ok () v' ∧ v'.Gated id ∧
      (v.node id).length = 1000 ∧ (v'.node id).length = 0 := by
  let : Promise := memoryPromise
  have works : Promise.works := trivial
  obtain ⟨v, s, id, run, gated, here, bytes⟩ := exists_gated_file
  obtain ⟨_, inv⟩ := run.inv_of_memory
  have hid : id ∈ [id] := List.mem_singleton_self id
  obtain ⟨(_ : Unit), v', e, leads, -, resized⟩ := inv.answers works (.setLength id 0) hid
    fun _ _ _ refused => Nat.not_lt_zero _ refused.1
  obtain ⟨_, inv'⟩ := leads.inv
  have denials : (v'.node id).denials = (v.node id).denials :=
    (Request.preserves_denials (.setLength id 0) nofun nofun _ v rfl).ok e
  have opened := inv.opened hid
  have opened' := inv'.opened (show id ∈ _ from hid)
  have gated' : v'.Gated id := ⟨denials ▸ gated.denied, opened'.opens⟩
  refine ⟨v, _, id, v', run, hid, gated, e, gated', ?_, ?_⟩
  · rw [← lengthOf_of_some opened.entry, ← size_bytes, here, bytes, Array.size_replicate]
  · rw [← lengthOf_of_some opened'.entry, ← size_bytes, leads.follows.sector id opened.inside, resized,
      Bytes.size_resized]

end Volume

end SectorVolume
