import Mathlib.Data.List.Dedup
import SectorVolume.Proofs.Volume.Frames
import SectorVolume.Proofs.Volume.Runs

/-!
# The table of open inodes

As long as no transfer fails, the table has one entry for each sector that somebody has open, and
the node there is shared by all of its handles. After the last close of an inode that stays, its
record is on the disk, and whoever opens it next gets a new node that is like the old one.
-/

namespace SectorVolume

open SectorVolume.Action

/-! ## Entries -/

namespace OpenTable

variable {table : OpenTable} {s : SectorId} {id : NodeId}

/-- The entries stand by ascending sector, one for each. -/
def Ascending (table : OpenTable) : Prop := table.Pairwise fun a b => a.1 < b.1

theorem mem_insert {entry : SectorId × NodeId} (h : entry ∈ table.insert s id) :
    entry = (s, id) ∨ entry ∈ table := by
  induction table with
  | nil => exact .inl (List.mem_singleton.1 h)
  | cons first rest ih =>
    obtain ⟨s', id'⟩ := first
    unfold insert at h
    split at h
    · exact List.mem_cons.1 h
    split at h
    · exact (List.mem_cons.1 h).imp_right (List.mem_cons_of_mem _)
    · rcases List.mem_cons.1 h with here | there
      · exact .inr (List.mem_cons.2 (.inl here))
      · exact (ih there).imp_right (List.mem_cons_of_mem _)

theorem Ascending.insert (h : table.Ascending) (s : SectorId) (id : NodeId) :
    Ascending (table.insert s id) := by
  induction table with
  | nil => exact List.pairwise_singleton ..
  | cons first rest ih =>
    obtain ⟨s', id'⟩ := first
    obtain ⟨above, ascends⟩ := List.pairwise_cons.1 h
    unfold OpenTable.insert
    split
    · next less =>
      refine List.pairwise_cons.2 ⟨fun entry hentry => ?_, h⟩
      rcases List.mem_cons.1 hentry with rfl | later
      · exact less
      · exact UInt32.lt_trans less (above entry later)
    · next notLess =>
      split
      · next same => exact List.pairwise_cons.2 ⟨fun entry later => same ▸ above entry later, ascends⟩
      · next other =>
        refine List.pairwise_cons.2 ⟨fun entry hentry => ?_, ih ascends⟩
        rcases mem_insert hentry with rfl | later
        · exact UInt32.lt_of_le_of_ne (UInt32.not_lt.1 notLess) (Ne.symm other)
        · exact above entry later

theorem Ascending.erase (h : table.Ascending) (s : SectorId) : Ascending (table.erase s) :=
  List.Pairwise.sublist List.filter_sublist h

theorem Ascending.nodup (h : table.Ascending) : (table.map Prod.fst).Nodup :=
  List.pairwise_map.2 (h.imp fun less => UInt32.ne_of_lt less)

theorem mem_sectors : s ∈ table.map Prod.fst ↔ ∃ id, table.lookup s = some id := by
  rw [← Option.isSome_iff_exists, List.lookup_isSome_iff, List.mem_map]
  refine exists_congr fun entry => and_congr_right fun _ => ?_
  rw [beq_iff_eq]
  exact eq_comm

end OpenTable

namespace Volume

variable {disk : Disk} {log : Log} {total : UInt32} {capacity : Nat} {time : Int64}
  {v v' w : Volume} {c c' : Client} {r : Request} {s : SectorId} {id : NodeId} {floor : Nat}

theorem framed_ascending :
    Framed (fun _ => True) (fun _ => True) fun v => v.table.Ascending :=
  ⟨fun _ _ h _ => h, fun _ _ _ h _ => h, fun _ _ h _ => h, fun _ s k h _ => h.insert s k,
    fun _ s h => h.erase s⟩

theorem Probed.ascending (h : Probed disk log total capacity time v c) : v.table.Ascending := by
  induction h with
  | format e =>
    let : Promise := promise disk total
    have works : Promise.works → disk.Working Promise.sectors := fun works => works
    have cases := format_cases log capacity time works (Nat.le_refl _)
      (Nat.le_of_lt total.toNat_lt) (room_of_format e)
    rw [e] at cases
    rw [cases.1.table]
    exact .nil
  | @step _ _ _ _ r _ step ih =>
    have keeps := framed_ascending.perform r (fun _ _ => trivial) (fun _ _ => trivial) _ ih
    cases step with
    | answered _ e => exact keeps.ok e
    | failed _ e => exact keeps.error e

/-! ## Handles -/

/-- Without a failed transfer no handle is lost. -/
theorem Reachable.lost_eq (h : Reachable disk log total capacity time v c)
    (clean : v.space.stock.failures = disk.failures) : c.handles.lost = [] := by
  let : Promise := promise disk total
  induction h with
  | format => rfl
  | @answered _ _ _ r _ h allowed e ih =>
    obtain ⟨_, trees, -, -, inv⟩ := h.inv (fun works => works) (Nat.le_refl _)
      (Nat.le_of_lt total.toNat_lt)
    have leads := ((Request.ends_perform inv r allowed).ok e).1
    rw [Request.lost_answered]
    exact ih (inv.floor_eq leads.follows.stock clean)
  | @failed _ _ _ r _ h allowed e ih =>
    obtain ⟨_, trees, -, -, inv⟩ := h.inv (fun works => works) (Nat.le_refl _)
      (Nat.le_of_lt total.toNat_lt)
    have ends := (Request.ends_perform inv r allowed).error e
    cases r with
    | closeInode =>
      rcases ends with ⟨-, no⟩ | ⟨_, -, -, -, failed⟩
      · exact no.elim
      · exact absurd clean (inv.floor_ne failed)
    | _ =>
      rcases ends with ⟨leads, -⟩ | ⟨_, -, moves, -, failed⟩
      · exact ih (inv.floor_eq leads.follows.stock clean)
      · exact absurd clean (inv.floor_ne failed)

section

variable [Promise] {trees : SectorId → Tree}

/-- There is an entry for each sector that the client has open, and for no others. -/
theorem Inv.entry_iff (h : v.Inv floor c trees) (clean : v.space.stock.failures = floor)
    (lost : c.handles.lost = []) (s : SectorId) :
    (∃ id, v.table.lookup s = some id) ↔ ∃ id ∈ c.handles.ids, (v.node id).sector = s := by
  constructor
  · rintro ⟨id, entry⟩
    obtain ⟨sector, -, ⟨opens, -⟩ | ⟨-, doomed⟩⟩ := h.tabled.entry s id entry
    · rw [h.tabled.handles.opens, lost, List.count_nil] at opens
      exact ⟨id, List.count_pos_iff.1 opens, sector⟩
    · rw [h.undoomed clean] at doomed
      exact (List.not_mem_nil doomed).elim
  · rintro ⟨id, hid, rfl⟩
    exact ⟨id, (h.opened hid).entry⟩

/-- The table has as many entries as there are sectors that the client has open. -/
theorem Inv.openCount_eq (h : v.Inv floor c trees) (clean : v.space.stock.failures = floor)
    (lost : c.handles.lost = []) (ascending : v.table.Ascending) :
    v.openCount = (c.handles.ids.map fun id => (v.node id).sector).dedup.length := by
  have perm : (v.table.map Prod.fst).Perm (c.handles.ids.map fun id => (v.node id).sector).dedup := by
    refine (List.perm_ext_iff_of_nodup ascending.nodup (List.nodup_dedup _)).2 fun s => ?_
    rw [OpenTable.mem_sectors, h.entry_iff clean lost, List.mem_dedup, List.mem_map]
  unfold openCount
  rw [← perm.length_eq, List.length_map]

end

/-! ## Closed inodes -/

/-- Nobody has the live inode at `s` open, and it is what it was in `v₀`. -/
structure Resting (v₀ v : Volume) (c : Client) (s : SectorId) : Prop where
  live : s ∈ c.live
  absent : v.table.lookup s = none
  same : Matches v₀ v s

/-- A request that does not open the sector. -/
def Ignores (s : SectorId) (r : Request) (_ : Volume) (_ : Client) (_ : Volume) (_ : Client) : Prop :=
  r ≠ .openInode s

theorem framed_absent (s : SectorId) :
    Framed (fun _ => True) (· ≠ s) fun v => v.table.lookup s = none := by
  refine ⟨fun _ _ h _ => h, fun _ _ _ h _ => h, fun _ _ h _ => h, fun v s' k h ne => ?_,
    fun v s' h => ?_⟩
  · show (v.table.insert s' k).lookup s = none
    rw [OpenTable.lookup_insert, if_neg (Ne.symm ne)]
    exact h
  · show (v.table.erase s').lookup s = none
    rw [OpenTable.lookup_erase]
    split
    · rfl
    · exact h

section

variable [Promise] {v₀ : Volume}

/-- An inode that is closed has no handles. -/
theorem Resting.apart {trees : SectorId → Tree} (h : Resting v₀ v c s) (inv : v.Inv floor c trees)
    (hid : id ∈ c.handles.ids) : (v.node id).sector ≠ s := by
  intro here
  have entry := (inv.opened hid).entry
  rw [here, h.absent] at entry
  cases entry

/-- It stays what it is as long as it is not opened. -/
theorem Resting.step (h : Resting v₀ v c s) (known : v.Known floor total time c)
    (step : r.Step v c v' c') (ignores : Ignores s r v c v' c') : Resting v₀ v' c' s := by
  obtain ⟨trees, inv⟩ := known.inv
  have moves := known.moves step
  have keeps := (framed_absent s).perform r (fun _ _ => trivial)
    (fun s' e e' => ignores (e' ▸ e)) v h.absent
  have sector : ∀ {id}, id ∈ c.handles.ids → (v'.node id).sector ≠ s := fun hid e =>
    h.apart inv hid ((moves.follows.sector _ (inv.opened hid).inside).symm.trans e)
  have live : s ∈ c'.live := by
    cases step with
    | answered allowed =>
      cases r with
      | createInode => exact List.mem_cons_of_mem _ h.live
      | closeInode id =>
        show s ∈ (c.closed id _).live
        unfold Client.closed
        split
        · exact (List.mem_erase_of_ne (sector allowed).symm).2 h.live
        · exact h.live
      | _ => exact h.live
    | failed tried =>
      cases r with
      | closeInode id =>
        have allowed : id ∈ c.handles.ids := tried.resolve_right nofun
        show s ∈ (c.interrupted id _).live
        unfold Client.interrupted
        split
        · split
          · exact (List.mem_erase_of_ne (sector allowed).symm).2 h.live
          · exact h.live
        · exact h.live
      | _ => exact h.live
  have target : r.target v ≠ some s := by
    intro target
    have tried : r.Tried c := by
      cases step with
      | answered allowed => exact .inl allowed
      | failed tried => exact tried
    cases r with
    | createInode sector =>
      cases target
      have blank : s ∈ c.blank := tried.resolve_right nofun
      exact (inv.not_live_of_blank blank).1 h.live
    | writeAt id => exact h.apart inv (tried.resolve_right nofun) (Option.some.inj target)
    | setLength id => exact h.apart inv (tried.resolve_right nofun) (Option.some.inj target)
    | _ => cases target
  refine ⟨live, ?_, h.same.trans (moves.same s h.live (not_or.2 ⟨target, fun dead => dead live⟩))⟩
  cases step with
  | answered _ e => exact keeps.ok e
  | failed _ e => exact keeps.error e

/-- Opening it makes a node for it. -/
theorem Resting.ends_openInode {trees : SectorId → Tree} (h : Resting v₀ v c s)
    (inv : v.Inv floor c trees) :
    Ends (openInode s) v
      (fun id w => id = v.nodes.size ∧ w.table.lookup s = some id ∧
        w.node id = Node.ofRecord s (v₀.currentOf s))
      fun _ w => v.space.storage.disk.failures < w.space.storage.disk.failures := by
  have held := inv.held_inode (Client.mem_inodes_live h.live)
  have record : v.recordOf s = v₀.currentOf s := by
    rw [← h.same.record, currentOf_of_none h.absent]
  have opening := (meets_openSector inv.space.storage fun _ => held.1.lt).and
    (meets_openInode inv h.live)
  refine opening.ends.mono ?_ ?_
  · rintro id w ⟨⟨-, entry, -⟩ | ⟨-, -, -, idles⟩, -⟩
    · rw [h.absent] at entry
      cases entry
    · rw [idles.rest, ← record]
      exact ⟨rfl, (lookup_opened v s s).trans (if_pos rfl), (node_opened v s _).trans (if_pos rfl)⟩
  · rintro _ w ⟨_, rfl, -, -, -, failed⟩
    exact failed

theorem Resting.steps (h : Resting v₀ v c s) (known : v.Known floor total time c)
    (steps : Steps (Ignores s) v c v' c') : Resting v₀ v' c' s ∧ v'.Known floor total time c' := by
  induction steps with
  | refl => exact ⟨h, known⟩
  | tail _ step ignores ih => exact ⟨ih.1.step ih.2 step ignores, ih.2.step step⟩

end

/-- The node `n'` was made for the inode of the node `n` after the last close of that. -/
structure Renews (n n' : Node) : Prop where
  sector : n'.sector = n.sector
  record : n'.record = n.currentRecord
  length : n'.length = n.length
  kind : n'.isDirectory = n.isDirectory
  opens : n'.opens = 1
  kept : n'.removed = false
  writable : n'.denials = 0

theorem File.renews [Promise] {t : Tree} (file : v.File s t) (entry : v.table.lookup s = some id)
    (sector : (v.node id).sector = s) :
    Renews (v.node id) (Node.ofRecord s (v.currentOf s)) := by
  have record : v.currentOf s = (v.node id).currentRecord := by
    unfold currentOf Node.currentRecord
    rw [recordOf_of_some entry, lengthOf_of_some entry]
  refine ⟨sector.symm, record, ?_, ?_, rfl, rfl, rfl⟩
  · have room := file.room
    have few := file.tree.data_length_le
    have words : UInt32.size = 4294967296 := rfl
    show (UInt32.ofNat (v.lengthOf s)).toNat = _
    rw [UInt32.toNat_ofNat_of_lt' (by omega), lengthOf_of_some entry]
  · rw [← kindOf_of_some entry, file.kind, file.record]
    rfl

/-- As long as no transfer has failed, there is an entry in the table for each sector that the
client has open, whose node is shared by its handles and is open as often as there are handles. If
the last one is closed and the inode was not removed, the disk has the record as it was last, and
the next to open the inode, whatever happened to others in between, gets a new node with that
record. -/
theorem Reachable.registry (h : Reachable disk log total capacity time v c)
    (clean : v.space.storage.disk.failures = disk.failures) :
    (∀ s, (∃ id, v.table.lookup s = some id) ↔ ∃ id ∈ c.handles.ids, (v.node id).sector = s) ∧
    (∀ id ∈ c.handles.ids, v.table.lookup (v.node id).sector = some id ∧
      (v.node id).opens = c.handles.ids.count id ∧
        ∀ id' ∈ c.handles.ids, (v.node id').sector = (v.node id).sector → id' = id) ∧
    v.openCount = (c.handles.ids.map fun id => (v.node id).sector).dedup.length ∧
    ∀ id ∈ c.handles.ids, c.handles.ids.count id = 1 → (v.node id).removed = false →
      Ends (closeInode id) v
        (fun _ v' => v'.Shelved (v.node id).sector (v.node id).currentRecord ∧
          ∀ w c', Steps (Ignores (v.node id).sector) v' (c.drop id) w c' →
            Ends (openInode (v.node id).sector) w
              (fun id' w' => id' = w.nodes.size ∧
                w'.table.lookup (v.node id).sector = some id' ∧ Renews (v.node id) (w'.node id'))
              fun _ w' => w.space.storage.disk.failures < w'.space.storage.disk.failures)
        fun _ v' => v.space.storage.disk.failures < v'.space.storage.disk.failures := by
  let : Promise := promise disk total
  have known := h.probed.promised
  obtain ⟨trees, inv⟩ := known.inv
  have lost := h.lost_eq clean
  have opens : ∀ id, (v.node id).opens = c.handles.ids.count id := fun id => by
    rw [inv.tabled.handles.opens, lost, List.count_nil, Nat.add_zero]
  refine ⟨inv.entry_iff clean lost, fun id hid => ⟨(inv.opened hid).entry, opens id, ?_⟩,
    inv.openCount_eq clean lost h.probed.ascending, fun id hid last removed => ?_⟩
  · intro id' hid' same
    have entry := (inv.opened hid').entry
    rw [same, (inv.opened hid).entry] at entry
    exact (Option.some.inj entry).symm
  have o := inv.opened hid
  refine (Request.ends_perform inv (.closeInode id) hid).run.mono ?_ ?_
  · rintro a v' ⟨⟨leads, -, shelved⟩, run⟩
    have shelved := shelved (Nat.le_of_eq ((opens id).trans last)) removed
    have stays : Request.answered c v' (.closeInode id) a = c.drop id := by
      refine if_neg fun dead => ?_
      rw [((inv.tabled.dead_iff hid).1 dead).2] at removed
      cases removed
    have known' := known.step (.answered (r := .closeInode id) hid run)
    rw [stays] at leads known'
    refine ⟨shelved, fun w c' steps => ?_⟩
    have resting : Resting v v' (c.drop id) (v.node id).sector := by
      refine ⟨o.live, shelved.absent, leads.same _ o.live ?_⟩
      rintro (none | dead)
      · cases none
      · exact dead o.live
    obtain ⟨rests, known''⟩ := resting.steps known' steps
    obtain ⟨trees'', inv''⟩ := known''.inv
    refine (rests.ends_openInode inv'').mono ?_ fun _ _ failed => failed
    rintro id' w' ⟨fresh, entry, node⟩
    exact ⟨fresh, entry, node ▸ (inv.files _ o.live).renews o.entry rfl⟩
  · rintro e v' ⟨⟨-, no⟩ | ⟨_, -, -, -, failed⟩, -⟩
    · exact no.elim
    · exact failed

/-- In a small memory the only handle of a file is closed, and the file is opened again. -/
theorem registry_of_open_file : ∃ v s id,
    Reachable (Disk.memory 16) {} 16 1 0 v ⟨[], [s], [], ⟨[id], [], []⟩⟩ ∧
      v.space.storage.disk.failures = (Disk.memory 16).failures ∧ (v.node id).removed = false ∧
        v.table.lookup s = some id ∧ (v.node id).opens = 1 ∧ v.openCount = 1 ∧
          Ends (closeInode id) v
            (fun _ v' => v'.Shelved s (v.node id).currentRecord ∧
              Ends (openInode s) v'
                (fun id' w => id' = v'.nodes.size ∧ Renews (v.node id) (w.node id'))
                fun _ w => v'.space.storage.disk.failures < w.space.storage.disk.failures)
            fun _ v' => v.space.storage.disk.failures < v'.space.storage.disk.failures := by
  obtain ⟨v, s, id, run, -, clean, -⟩ := exists_open_file
  let : Promise := memoryPromise
  obtain ⟨trees, inv⟩ := run.probed.inv_of_memory
  have hid : id ∈ [id] := List.mem_singleton_self id
  have here : (v.node id).sector = s := List.mem_singleton.1 (inv.opened hid).live
  have last : [id].count id = 1 := List.count_singleton_self
  have kept : (v.node id).removed = false := by
    rw [Bool.eq_false_iff]
    exact fun removed => List.not_mem_nil ((inv.tabled.handles.removed id).1 removed)
  obtain ⟨-, handles, count, close⟩ := run.registry clean
  obtain ⟨entry, opens, -⟩ := handles id hid
  have closing := close id hid last kept
  rw [here] at entry closing
  refine ⟨v, s, id, run, clean, kept, entry, opens.trans last, count, closing.mono ?_ fun _ _ h => h⟩
  intro _ v' ⟨shelved, next⟩
  exact ⟨shelved, (next v' _ .refl).mono (fun _ _ h => ⟨h.1, h.2.2⟩) fun _ _ h => h⟩

end Volume

end SectorVolume
