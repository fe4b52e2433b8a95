import SectorVolume.Proofs.Volume.Editing

/-!
# Writing open files

A write changes the bytes of the file, may take sectors and make the file longer, and saves the
record at the end, also when a transfer failed before that. Whatever stops it, the file has the
bytes that were written until then, and its sector holds its record again unless saving it failed.
-/

namespace SectorVolume

open SectorVolume.Action

namespace Volume

variable {v v' : Volume} {s : SectorId} {t t' : Tree} {id : NodeId} {c : Client}
  {floor : Nat} {trees : SectorId → Tree}

variable [Promise]

/-- What a write does before the record is brought up to date; `before` is the node as it was until
then. The number of bytes written is returned together with what stopped them. -/
def writeUnsaved (id : NodeId) (before : Node) (data : Bytes) (offset : Nat) :
    Action Volume (Nat × Except Fault Unit) := do
  let (written, outcome) ←
    onRecord id <|
      writePieces before.sector data offset 0 (pieces offset (min data.size (maxFileSize - offset)))
  if written < data.size && outcome.isOk then
    note (.shortWrite before.sector written data.size offset)
  if written > 0 && offset + written > before.length then
    modifyNode id fun n => { n with length := offset + written }
  return (written, outcome)

/-- Brings the record up to date if its sectors changed or the node got longer. -/
def saveChanges (id : NodeId) (before : Node) (longer : Bool) : Action Volume Unit := do
  if longer || !(← getNode id).record.samePointers before.record then persist id

omit [Promise] in
/-- A write ends with saving the record, whatever stopped the bytes before that. -/
theorem writeAt_eq (id : NodeId) (data : Bytes) (offset : Nat) : writeAt id data offset = (do
    let before ← getNode id
    if before.denials > 0 then
      note (.writeDenied before.sector)
      return 0
    let (written, outcome) ← writeUnsaved id before data offset
    saveChanges id before (written > 0 && offset + written > before.length)
    Action.resume outcome
    return written) := by
  unfold writeAt writeUnsaved settleWrite saveChanges
  refine bind_congr fun before => ?_
  by_cases denied : before.denials > 0
  · rw [if_pos denied, if_pos denied]
  · rw [if_neg denied, if_neg denied, bind_assoc]
    refine bind_congr fun r => ?_
    by_cases short : (r.1 < data.size && r.2.isOk) = true <;>
      by_cases longer : (r.1 > 0 && offset + r.1 > before.length) = true <;>
        simp only [short, longer, if_true, if_false, bind_assoc, pure_bind, Bool.true_or,
          Bool.false_or, Bool.false_eq_true]

/-- The length of a node after `written` bytes were written at `offset`. -/
def stretched (length offset written : Nat) : Nat :=
  if written = 0 then length else max length (offset + written)

/-- From `v` to `w` the first `n` bytes of `data` were written at `offset` to the file of node `id`
with the tree `t`, which has the tree `t'` now; the record of the node was not saved since. -/
structure Unsaved (v : Volume) (id : NodeId) (t : Tree) (data : Bytes) (offset n : Nat) (m : Mapping)
    (t' : Tree) (w : Volume) : Prop where
  le : n ≤ min data.size (maxFileSize - offset)
  writes : Mapping.Writes ⟨v.space, (v.node id).record⟩ t data offset offset (offset + n) m t'
  spends : Mapping.Spends ⟨v.space, (v.node id).record⟩ t (offset + n)
    (offset + min data.size (maxFileSize - offset)) m t'
  rests : m.space.Rests w.space
  node : w = v.revised id (fun k => { k with
    record := m.record, length := stretched (v.node id).length offset n }) w.space

variable {data : Bytes} {offset n : Nat} {m : Mapping} {w : Volume}

theorem meets_writeUnsaved (h : v.Inv floor c trees) (o : v.Opened c id s) (data : Bytes)
    (offset : Nat) {f : Fault → Volume → Prop} :
    Meets (writeUnsaved id (v.node id) data offset) v
      (fun r w => ∃ m t, v.Unsaved id (trees s) data offset r.1 m t w ∧
        ∀ e, r.2 = .error e → Stock.Broke v.space.stock w.space.stock e) f := by
  unfold writeUnsaved
  have writing := Mapping.meets_writePieces data offset (h.mapping o) (v.node id).sector 0
    (min data.size (maxFileSize - offset)) (by omega) (by omega)
  refine (meets_onRecord writing).bind (fun r v₁ h₁ => ?_) fun _ _ ⟨_, no, _⟩ => no.elim
  obtain ⟨m₁, ⟨-, le, ⟨t, writes, spends⟩, why⟩, e₁⟩ := h₁
  obtain ⟨n, outcome⟩ := r
  rw [Nat.zero_add] at le spends
  have stretch : ∀ sp, m₁.space.Rests sp → Meets (do
      if n > 0 && offset + n > (v.node id).length then
        modifyNode id fun k => { k with length := offset + n }
      return (n, outcome)) (v.revised id (fun k => { k with record := m₁.record }) sp)
      (fun r w => ∃ m t, v.Unsaved id (trees s) data offset r.1 m t w ∧
        ∀ e, r.2 = .error e → Stock.Broke v.space.stock w.space.stock e) f := by
    intro sp rests
    have failed : ∀ e, outcome = .error e → Stock.Broke v.space.stock sp.stock e := fun e he =>
      ⟨(why e he).1, Nat.lt_of_lt_of_le (why e he).2 rests.failures⟩
    by_cases longer : (decide (n > 0) && decide (offset + n > (v.node id).length)) = true
    · rw [if_pos longer]
      rw [Bool.and_eq_true, decide_eq_true_iff, decide_eq_true_iff] at longer
      refine meets_modifyNode (meets_pure ⟨m₁, t, ⟨le, writes, spends, rests, ?_⟩, failed⟩)
      have length : stretched (v.node id).length offset n = offset + n := by
        unfold stretched
        rw [if_neg (by omega)]
        omega
      rw [length]
      exact revised_revised v id (fun k => { k with record := m₁.record })
        (fun k => { k with length := offset + n }) sp sp
    · rw [if_neg longer]
      rw [Bool.and_eq_true, decide_eq_true_iff, decide_eq_true_iff] at longer
      refine meets_pure ⟨m₁, t, ⟨le, writes, spends, rests, revised_congr ?_ sp⟩, failed⟩
      have length : stretched (v.node id).length offset n = (v.node id).length := by
        unfold stretched
        split <;> omega
      rw [length]
  rw [e₁]
  simp only
  split
  · refine (meets_note (v := v.revised id _ _) writes.sound.space _ (f := fun _ _ => False)).bind
      (fun _ v₂ h₂ => ?_) fun _ _ no => no.elim
    rw [h₂.2]
    exact stretch _ h₂.1
  · exact stretch _ writes.sound.space.rests

namespace Unsaved

theorem node_eq (u : v.Unsaved id t data offset n m t' w) (inside : id < v.nodes.size) :
    w.node id = { v.node id with
      record := m.record, length := stretched (v.node id).length offset n } := by
  rw [u.node]
  exact (node_revised inside _ _ id).trans (if_pos rfl)

/-- A write that changed neither the length nor the sectors of the record leaves the record saved.
-/
theorem saved (u : v.Unsaved id (trees s) data offset n m t w) (h : v.Inv floor c trees)
    (o : v.Opened c id s) (length : stretched (v.node id).length offset n = (v.node id).length)
    (same : m.record.samePointers (v.node id).record = true) (saved : v.Saved id) : w.Saved id := by
  obtain ⟨_, took, -⟩ := u.writes.alters.taken
  have record : (trees s).record = (v.node id).record := (h.mapping o).record
  have rest : m.record.withoutSectors = (v.node id).record.withoutSectors := by
    rw [← record, ← u.writes.alters.rest, u.writes.sound.record]
  have unchanged : m.record = (v.node id).record := Record.eq_of_samePointers same rest
  unfold Saved at saved ⊢
  rw [u.node_eq o.inside, unchanged, length]
  show w.space.stock.content (v.node id).sector = (v.node id).currentRecord.toSector
  rw [← saved, o.sector, u.rests.content]
  exact took.content (h.held_inode (Client.mem_inodes_live o.live))
    (Client.not_mem_tree h.owns.nodup o.live (Client.mem_inodes_live o.live))

/-- After the bytes were written and the record was brought up to date, as far as that went, the
file has new bytes and the others are as before. -/
theorem settled (u : v.Unsaved id (trees s) data offset n m t w) (h : v.Inv floor c trees)
    (o : v.Opened c id s) (settles : w.Settles id (w.node id).length v')
    (current : v'.space.stock.failures = floor → v'.Saved id) :
    v.Leads floor c (· = s) v' c ∧ (v'.bytes s =
        if n = 0 then v.bytes s else (v.bytes s).overwritten offset (data.extract 0 n)) ∧
      v'.mappedOf s = ⟨t.data, t.blocks⟩ ∧ (v'.Saved id → v'.Coherent s) := by
  have file := h.files s o.live
  have before := lengthOf_of_some o.entry
  have room := file.room
  rw [before] at room
  have longer : (trees s).data.length ≤ t.data.length := u.writes.alters.data.length_le
  have room' := u.writes.room
  have le := u.le
  obtain ⟨f, l, e, node⟩ := settles.node
  have took := settles.took
  have sound := settles.sound
  rw [u.node_eq o.inside] at node took
  replace took : Stock.Took (· = s) [] m.space.stock v'.space.stock :=
    (Space.Rests.took u.rests).trans_nil (o.sector ▸ took) fun _ _ hs => hs
  rw [u.node, revised_revised] at e
  obtain ⟨g, hg⟩ : ∃ g : Node → Node, g = fun k => f { k with
    record := m.record, length := stretched (v.node id).length offset n } := ⟨_, rfl⟩
  replace node : g (v.node id) = { v.node id with
      length := stretched (v.node id).length offset n, record := { m.record with length := l } } := by
    rw [hg]
    exact node
  rw [← hg] at e
  have opens : (g (v.node id)).opens = (v.node id).opens := by rw [node]
  have now : v'.node id = g (v.node id) := by
    rw [e]
    exact (node_revised o.inside g v'.space id).trans (if_pos rfl)
  have entry : v'.table.lookup s = some id := by
    rw [e]
    exact o.entry
  have coherent : v'.Saved id → v'.Coherent s := by
    intro saved
    unfold Saved at saved
    refine (coherent_of_some entry).2 ?_
    show v'.space.stock.content s = _
    rw [← saved, now, node, ← o.sector]
  obtain ⟨leads, lengthOf, mapped, spell⟩ := h.edit o u.writes.alters sound took
    ⟨l, by rw [node, u.writes.sound.record]⟩
    (by
      rw [node]
      show stretched _ _ _ ≤ _
      unfold stretched
      split
      · omega
      · have := room' (by omega)
        omega)
    (fun i hi => by
      rw [node] at hi
      replace hi : stretched (v.node id).length offset n ≤ i := hi
      unfold stretched at hi
      rw [u.writes.bytes, if_neg fun range => ?_]
      · exact file.zeros i (by rw [before]; split at hi <;> omega)
      · split at hi <;> omega)
    (by rw [node]; exact ⟨rfl, rfl⟩) (Nat.lt_of_lt_of_eq o.opens opens.symm)
    (h.tabled.handles.same opens (by rw [node]))
    fun e' => by rw [← now]; exact (coherent_of_some entry).1 (coherent (current e'))
  refine ⟨e ▸ leads, ?_, e ▸ mapped, coherent⟩
  rw [e]
  refine Bytes.ext_getD ?_ fun i => ?_
  · rw [size_bytes, lengthOf, node]
    show stretched _ _ _ = _
    unfold stretched
    split
    · rw [size_bytes, before]
    · rw [Bytes.size_overwritten, size_bytes, before, Array.size_extract]
      omega
  · rw [spell, u.writes.bytes]
    by_cases none : n = 0
    · rw [if_pos none, if_neg (by omega)]
      exact (file.getD_bytes i).symm
    · have size : (data.extract 0 n).size = n := by
        rw [Array.size_extract]
        omega
      rw [if_neg none, Bytes.getD_overwritten, size, Bytes.getD_extract, file.getD_bytes]
      by_cases range : offset ≤ i ∧ i < offset + n
      · rw [if_pos range, if_pos range, if_pos (by omega), Nat.zero_add]
      · rw [if_neg range, if_neg range]

end Unsaved

/-- The last step of a write, in which it saves the record, fails with `e` and leaves `v'`. -/
def FailsToSave (v : Volume) (id : NodeId) (data : Bytes) (offset : Nat) (e : Fault) (v' : Volume) :
    Prop :=
  ∃ r w, writeUnsaved id (v.node id) data offset v = .ok r w ∧ persist id w = .error (.fault e) v'

/-- A write of `data` at `offset` that came to `n` bytes made a tree `t` of `t₀`, which keeps all
sectors. When that is all it took no more than it needed, and otherwise there were too few free
sectors for the next byte, or a transfer failed, or the write was denied. -/
structure Spends (v : Volume) (id : NodeId) (t₀ : Tree) (data : Bytes) (offset n : Nat) (v' : Volume)
    (t : Tree) : Prop where
  kept : t₀.sectors ⊆ t.sectors
  longer : t₀.data.length ≤ t.data.length
  more : t₀.sectors.length ≤ t.sectors.length
  room : 0 < n → offset + n ≤ 512 * t.data.length
  all : n = data.size → Tree.Thrifty (dataSectors (offset + n)) t₀ t
  short : (v.node id).denials = 0 → n < min data.size (maxFileSize - offset) →
    Stock.Lacks v.space.stock v'.space.stock ((offset + n) / 512 + 1 - t.data.length)

/-- What a write took stays taken while its record is being saved. -/
theorem Unsaved.spent (u : v.Unsaved id t data offset n m t' w)
    (follows : w.space.stock.failures ≤ v'.space.stock.failures)
    (free : ∀ k, v'.space.stock.free k → w.space.stock.free k) :
    v.Spends id t data offset n v' t' := by
  obtain ⟨ids, took, perm⟩ := u.writes.alters.taken
  have le := u.le
  have rests := Space.Rests.took u.rests (X := Stock.nowhere)
  refine ⟨fun k hk => perm.mem_iff.2 (List.mem_append_left _ hk), u.writes.alters.data.length_le, ?_,
    fun some => u.writes.room (by omega), fun all => ?_, fun _ short => ?_⟩
  · rw [perm.length_eq, List.length_append]
    exact Nat.le_add_right _ _
  · have goal : offset + n = offset + min data.size (maxFileSize - offset) := by omega
    rw [goal]
    exact u.spends.all goal
  · exact (u.spends.short (by omega)).of_free (Nat.le_trans rests.failures follows)
      fun k hk => (rests.left k (free k hk)).1

/-- What is written replaces bytes of the file. If something stops it, then what was written until
then does. The sector of the inode holds the record again, if it did before, unless that was what
failed. -/
theorem meets_writeAt (h : v.Inv floor c trees) (o : v.Opened c id s) (data : Bytes) (offset : Nat) :
    Meets (writeAt id data offset) v
      (fun n v' => v.Leads floor c (· = s) v' c ∧
        (n ≤ min data.size (maxFileSize - offset) ∧ v'.bytes s =
          if n = 0 then v.bytes s else (v.bytes s).overwritten offset (data.extract 0 n)) ∧
        (v.Coherent s → v'.Coherent s) ∧
        ∃ t, v'.mappedOf s = ⟨t.data, t.blocks⟩ ∧ v.Spends id (trees s) data offset n v' t)
      (fun e v' => v.Breaks floor c (· = s) e v' c ∧
        (∃ n, n ≤ min data.size (maxFileSize - offset) ∧ v'.bytes s =
          if n = 0 then v.bytes s else (v.bytes s).overwritten offset (data.extract 0 n)) ∧
        (v.Coherent s → v'.Coherent s ∨ v.FailsToSave id data offset e v')) := by
  have saved_iff : v.Saved id ↔ v.Coherent s := by
    rw [coherent_of_some o.entry, ← o.sector]
    rfl
  rw [writeAt_eq]
  refine meets_getNode ?_
  by_cases denied : (v.node id).denials > 0
  · rw [if_pos denied]
    refine (meets_note h.space _ (f := fun _ _ => False)).bind (fun _ v₁ h₁ => meets_pure ?_)
      fun _ _ no => no.elim
    obtain ⟨rests, e₁⟩ := h₁
    rw [e₁, if_pos rfl]
    refine ⟨(h.leads_rests rests).mono, ⟨Nat.zero_le _, bytes_of_rests rests s⟩, fun coherent => ?_,
      trees s, ?_, fun _ hk => hk, Nat.le_refl _, Nat.le_refl _,
      fun some => absurd some (Nat.lt_irrefl 0), fun _ => .refl _ _,
      fun none => absurd none (Nat.ne_of_gt denied)⟩
    · have alike : Alike v { v with space := v₁.space } s :=
        alike_of_entry rfl (fun _ _ => rfl) (congrFun rests.content s)
      exact alike.coherent coherent
    · exact (matches_of_rests rests s).mapped.trans (h.files s o.live).mappedOf_eq
  · rw [if_neg denied]
    refine (meets_writeUnsaved h o data offset (f := fun _ _ => False)).run.bind
      (fun r w h₁ => ?_) fun _ _ no => no.1.elim
    obtain ⟨⟨m, t, u, why⟩, run⟩ := h₁
    obtain ⟨n, outcome⟩ := r
    simp only at u why
    have follows : Stock.Follows v.space.stock w.space.stock := by
      obtain ⟨_, took, -⟩ := u.writes.alters.taken
      exact took.toFollows.trans (Space.Rests.took u.rests (X := Stock.nowhere)).toFollows
    have sector : (w.node id).sector = (v.node id).sector := by rw [u.node_eq o.inside]
    -- the record is saved where it was before, or it is saved now
    have saving : Meets (saveChanges id (v.node id) (n > 0 && offset + n > (v.node id).length)) w
        (fun _ v' => w.Settles id (w.node id).length v' ∧ (v.Saved id → v'.Saved id))
        (fun e v' => w.Settles id (w.node id).length v' ∧
          Stock.Broke w.space.stock v'.space.stock e ∧ persist id w = .error (.fault e) v') := by
      unfold saveChanges
      have record : (w.node id).record = m.record := congrArg Node.record (u.node_eq o.inside)
      refine meets_getNode ?_
      rw [record]
      have inside : id < w.nodes.size := by
        rw [u.node]
        exact (size_withNode ..).symm ▸ o.inside
      have usable : w.space.stock.Usable (w.node id).sector := by
        rw [sector]
        exact follows.usable.2 (h.usable o)
      split
      · have run := (settles_persist u.rests.sound inside usable).run
        exact run.mono (fun _ _ h₂ => ⟨h₂.1.1, fun _ => h₂.1.2⟩) fun _ _ h₂ => ⟨h₂.1.1, h₂.1.2, h₂.2⟩
      · next unchanged =>
        rw [Bool.or_eq_true, not_or, Bool.and_eq_true, decide_eq_true_iff, decide_eq_true_iff,
          Bool.not_eq_true', Bool.not_eq_false] at unchanged
        refine meets_pure ⟨settles_self u.rests.sound, u.saved h o ?_ unchanged.2⟩
        unfold stretched
        split <;> omega
    refine saving.bind (fun _ v₂ h₂ => ?_) fun e v₂ h₂ => ?_
    · obtain ⟨settles, saved⟩ := h₂
      have follows₂ := follows.trans settles.took.toFollows
      obtain ⟨leads, bytes, mapped, coherent⟩ := u.settled h o settles fun e =>
        saved (saved_iff.2 (h.current (h.floor_eq follows₂ e) s o.live))
      have coherent : v.Coherent s → v₂.Coherent s := fun c => coherent (saved (saved_iff.2 c))
      refine (meets_resume (d := fun _ v' => v' = v₂)
        (f := fun e v' => v' = v₂ ∧ Stock.Broke v.space.stock w.space.stock e) (fun _ _ => rfl)
        fun e he => ⟨rfl, why e he⟩).bind (fun _ v₃ h₃ => meets_pure ?_) fun e v₃ h₃ => ?_
      · rw [h₃]
        exact ⟨leads, ⟨u.le, bytes⟩, coherent, t, mapped, u.spent settles.took.failures
          fun k hk => (settles.took.left k hk).1⟩
      · rw [h₃.1]
        exact ⟨⟨leads, h₃.2.1, Nat.lt_of_lt_of_le h₃.2.2 settles.took.failures⟩, ⟨n, u.le, bytes⟩,
          fun c => .inl (coherent c)⟩
    · obtain ⟨settles, broke, failed⟩ := h₂
      have more := Nat.lt_of_le_of_lt follows.failures broke.2
      obtain ⟨leads, bytes, -⟩ := u.settled h o settles fun e => absurd e (h.floor_ne more)
      exact ⟨⟨leads, broke.1, more⟩, ⟨n, u.le, bytes⟩, fun _ => .inr ⟨_, _, run, failed⟩⟩

end Volume

end SectorVolume
