import SectorVolume.Proofs.Volume.Runs

/-!
# Removed inodes

After an inode was removed it can be opened as long as somebody has it open, and yields the node
that there is. The last close gives its sectors back. If a transfer fails on the way the node stays
behind, so that opening the inode is refused for good; otherwise there is no record any more in its
sector. `Volume.Removed` follows an inode through all this, up to the time when its sector is taken
again.
-/

namespace SectorVolume

open SectorVolume.Action

/-! ## Closes -/

namespace Request

variable {v v' : Volume} {c c' : Client} {r : Request} {id : NodeId} {s : SectorId}

/-- Removed inodes stay removed. -/
theorem Step.mem_removed (step : Step v c r v' c') (h : id ∈ c.handles.removed) :
    id ∈ c'.handles.removed := by
  cases step with
  | answered =>
    cases r with
    | remove j => exact List.mem_cons_of_mem _ h
    | closeInode j =>
      show id ∈ (c.closed ..).handles.removed
      rwa [Client.handles_closed]
    | _ => exact h
  | failed =>
    cases r with
    | closeInode j =>
      show id ∈ (c.interrupted ..).handles.removed
      rw [Client.handles_interrupted]
      split <;> exact h
    | _ => exact h

/-- What could not be given back is not given back later. -/
theorem Step.mem_doomed (step : Step v c r v' c') (h : s ∈ c.doomed) : s ∈ c'.doomed := by
  cases step with
  | answered =>
    cases r with
    | closeInode j =>
      show s ∈ (c.closed ..).doomed
      rwa [Client.doomed_closed]
    | _ => exact h
  | failed =>
    cases r with
    | closeInode j => exact Client.mem_doomed_interrupted h
    | _ => exact h

/-- Handles get less by a close only. -/
theorem Step.closes (step : Step v c r v' c') (before : id ∈ c.handles.ids ∨ id ∈ c.handles.lost)
    (after : id ∉ c'.handles.ids ∧ id ∉ c'.handles.lost) : r = .closeInode id := by
  have same : c'.handles = c.handles → r = .closeInode id := by
    intro e
    rw [e] at after
    exact absurd before (not_or.2 after)
  have more : ∀ {j}, c'.handles = c.handles.add j → r = .closeInode id := by
    intro j e
    rw [e] at after
    exact absurd before (not_or.2 ⟨fun hid => after.1 (List.mem_cons_of_mem _ hid), after.2⟩)
  have less : ∀ {j}, r = .closeInode j →
      (c'.handles = c.handles.drop j ∨ c'.handles = c.handles.lose j) → r = .closeInode id := by
    intro j closing e
    by_cases ne : id = j
    · rw [ne, closing]
    · rcases e with e | e
      all_goals
        rw [e] at after
        refine absurd before (not_or.2 ⟨fun hid => after.1 ((List.mem_erase_of_ne ne).2 hid), ?_⟩)
      · exact after.2
      · exact fun hid => after.2 (List.mem_cons_of_mem _ hid)
  cases step with
  | answered =>
    cases r with
    | openInode | reopen => exact more rfl
    | remove j => exact absurd before (not_or.2 after)
    | closeInode j => exact less rfl (.inl (Client.handles_closed ..))
    | _ => exact same rfl
  | failed =>
    cases r with
    | closeInode j =>
      refine less rfl ?_
      show (c.interrupted ..).handles = _ ∨ (c.interrupted ..).handles = _
      rw [Client.handles_interrupted]
      split
      · exact .inl rfl
      · exact .inr rfl
    | _ => exact same rfl

end Request

namespace Volume

variable {disk : Disk} {log : Log} {total : UInt32} {capacity : Nat} {time : Int64}
  {v v' : Volume} {c c' : Client} {r : Request} {s : SectorId} {id : NodeId} {floor : Nat}

section

variable [Promise] {trees : SectorId → Tree}

/-- The last close of a removed inode, when it is answered, leaves a free sector without a record.
-/
theorem Inv.vacated (h : v.Inv floor c trees) (hid : id ∈ c.handles.ids)
    (removed : id ∈ c.handles.removed) {a : Unit} (e : closeInode id v = .ok a v')
    (closed : (v'.node id).opens = 0) : v'.Vacated (v.node id).sector := by
  obtain ⟨leads, vacated, -⟩ := (Request.ends_perform h (.closeInode id) hid).ok e
  obtain ⟨_, inv'⟩ := leads.inv
  have handles : (Request.answered c v' (.closeInode id) a).handles = c.handles.drop id :=
    Client.handles_closed ..
  have after := inv'.tabled.handles.opens id
  rw [closed, handles] at after
  have before := h.tabled.handles.opens id
  have count := Handles.Counts.count_drop hid id
  rw [if_pos rfl] at count
  have lost : (c.handles.drop id).lost = c.handles.lost := rfl
  rw [lost] at after
  exact vacated (by omega) ((h.tabled.handles.removed id).2 removed)

/-- When it fails the node stays behind. -/
theorem Inv.stuck (h : v.Inv floor c trees) (hid : id ∈ c.handles.ids)
    (removed : id ∈ c.handles.removed)
    (moves : (Request.closeInode id).Moves floor v c v' (Request.failed c v' (.closeInode id)))
    (closed : (v'.node id).opens = 0) :
    (v.node id).sector ∈ (Request.failed c v' (.closeInode id)).doomed ∧
      v'.table.lookup (v.node id).sector = some id := by
  have opened := h.opened hid
  obtain ⟨_, inv'⟩ := moves.inv
  have handles : (Request.failed c v' (.closeInode id)).handles = c.handles.drop id :=
    (Client.handles_interrupted ..).trans (if_pos closed)
  have removed' : (v'.node id).removed = true := by
    rw [inv'.tabled.handles.removed, handles]
    exact removed
  have doomed : (v.node id).sector ∈ (Request.failed c v' (.closeInode id)).doomed := by
    show _ ∈ (c.interrupted ..).doomed
    unfold Client.interrupted
    rw [if_pos closed, if_pos removed', moves.follows.sector id opened.inside]
    exact List.mem_cons_self
  exact ⟨doomed, (moves.doomed _ doomed).trans opened.entry⟩

end

/-! ## What becomes of a removed inode -/

/-- How far a removed inode is. -/
inductive Remains where
  /-- Somebody has it open. -/
  | held
  /-- The last close failed while its sectors were given back. -/
  | stuck
  /-- Its sectors were given back. -/
  | gone
  deriving DecidableEq

/-- How far it is after a request that left its node open `opens` times, where its last close leads
to `last`. -/
def Remains.after (stage last : Remains) (opens : Nat) : Remains :=
  match stage with
  | held => if opens = 0 then last else held
  | stuck => stuck
  | gone => gone

/-- The sector `s`, which is free, was not taken by a request, not even for a moment. -/
def Skips (s : SectorId) (r : Request) (v v' : Volume) : Prop :=
  s ∉ r.drawn v ∧ v'.space.stock.free s

/-- The states that steps lead to after the inode at `s`, whose node is `id`, was removed, as long
as its sector is not taken again. -/
inductive Removed (disk : Disk) (log : Log) (total : UInt32) (capacity : Nat) (time : Int64)
    (s : SectorId) (id : NodeId) : Volume → Client → Remains → Prop where
  | remove {v v' : Volume} {c : Client} {a : Unit} (h : Probed disk log total capacity time v c)
    (hid : id ∈ c.handles.ids) (here : (v.node id).sector = s) (e : remove id v = .ok a v') :
    Removed disk log total capacity time s id v' (Request.answered c v' (.remove id) a) .held
  | answered {v v' : Volume} {c : Client} {stage : Remains} {r : Request} {a : r.Answer}
    (h : Removed disk log total capacity time s id v c stage) (allowed : r.Allowed c)
    (e : r.perform v = .ok a v') (skips : stage = .gone → Skips s r v v') :
    Removed disk log total capacity time s id v' (r.answered c v' a)
      (stage.after .gone (v'.node id).opens)
  | failed {v v' : Volume} {c : Client} {stage : Remains} {r : Request} {e' : Failure}
    (h : Removed disk log total capacity time s id v c stage) (tried : r.Tried c)
    (e : r.perform v = .error e' v') (skips : stage = .gone → Skips s r v v') :
    Removed disk log total capacity time s id v' (r.failed c v')
      (stage.after .stuck (v'.node id).opens)

/-- What is left of a removed inode. -/
def Remains.Left (v : Volume) (c : Client) (s : SectorId) (id : NodeId) : Remains → Prop
  | held => 0 < (v.node id).opens
  | stuck => s ∈ c.doomed ∧ v.table.lookup s = some id
  | gone => v.Vacated s

/-- What is known of a volume with a removed inode. -/
structure Traced [Promise] (floor : Nat) (total : UInt32) (time : Int64) (s : SectorId) (id : NodeId)
    (v : Volume) (c : Client) (stage : Remains) : Prop extends v.Known floor total time c where
  inside : id < v.nodes.size
  sector : (v.node id).sector = s
  removed : id ∈ c.handles.removed
  left : stage.Left v c s id

section

variable [Promise] {stage last : Remains}

/-- A free sector stays without a record as long as nobody takes it. -/
theorem Vacated.keep (h : v.Vacated s) (moves : r.Moves floor v c v' c') (skips : Skips s r v v') :
    v'.Vacated s := by
  refine ⟨skips.2, ?_⟩
  rcases moves.spared.idle s h.free skips.2 skips.1 with same | zero
  · exact same.trans h.zero
  · exact zero

/-- A step leads on from each of the stages. Only the last close has to be looked at. -/
theorem Traced.step (h : v.Traced floor total time s id c stage) (step : r.Step v c v' c')
    (skips : stage = .gone → Skips s r v v')
    (closing : 0 < (v.node id).opens → (v'.node id).opens = 0 → r = .closeInode id →
      last.Left v' c' s id) :
    v'.Traced floor total time s id c' (stage.after last (v'.node id).opens) := by
  have moves := h.moves step
  refine ⟨h.toKnown.step step, Nat.lt_of_lt_of_le h.inside moves.follows.size,
    (moves.follows.sector id h.inside).trans h.sector, step.mem_removed h.removed, ?_⟩
  obtain ⟨_, inv⟩ := h.inv
  obtain ⟨_, inv'⟩ := moves.inv
  cases stage with
  | held =>
    have opens : 0 < (v.node id).opens := h.left
    by_cases closed : (v'.node id).opens = 0
    · simp only [Remains.after, if_pos closed]
      refine closing opens closed (step.closes ?_ ((inv'.tabled.handles.opens_eq_zero_iff id).1 closed))
      have held := mt (inv.tabled.handles.opens_eq_zero_iff id).2 (Nat.ne_of_gt opens)
      rwa [not_and_or, Classical.not_not, Classical.not_not] at held
    · simp only [Remains.after, if_neg closed]
      exact Nat.pos_of_ne_zero closed
  | stuck =>
    obtain ⟨doomed, entry⟩ := h.left
    have doomed' := step.mem_doomed doomed
    exact ⟨doomed', (moves.doomed s doomed').trans entry⟩
  | gone => exact Vacated.keep h.left moves (skips rfl)

/-- All that is known holds in all these states. -/
theorem Removed.traced (works : Promise.works → disk.Working Promise.sectors)
    (room : total.toNat ≤ Promise.sectors) (words : Promise.sectors ≤ wordRange32)
    (h : Removed disk log total capacity time s id v c stage) :
    v.Traced disk.failures total time s id c stage := by
  induction h with
  | @remove v v' c a h hid here e =>
    have known := h.known works room words
    have step : (Request.remove id).Step v c v' (Request.answered c v' (.remove id) a) :=
      .answered hid e
    have moves := known.moves step
    obtain ⟨_, inv⟩ := known.inv
    obtain ⟨_, inv'⟩ := moves.inv
    have opened := inv.opened hid
    refine ⟨known.step step, Nat.lt_of_lt_of_le opened.inside moves.follows.size,
      (moves.follows.sector id opened.inside).trans here, List.mem_cons_self, ?_⟩
    exact inv'.tabled.handles.opens_pos hid
  | answered _ allowed e skips ih =>
    refine ih.step (.answered allowed e) skips fun opens closed closing => ?_
    subst closing
    obtain ⟨_, inv⟩ := ih.inv
    rw [← ih.sector]
    exact inv.vacated allowed ih.removed e closed
  | failed _ tried e skips ih =>
    have step := Request.Step.failed tried e
    refine ih.step step skips fun opens closed closing => ?_
    subst closing
    obtain ⟨_, inv⟩ := ih.inv
    have hid : id ∈ _ := tried.resolve_right nofun
    rw [← ih.sector]
    exact inv.stuck hid ih.removed (ih.moves step) closed

/-- What the table has for the sector of a removed inode, which users can have. -/
theorem Traced.entry (h : v.Traced floor total time s id c stage) :
    v.space.stock.Usable s ∧
      v.table.lookup s = match stage with
        | .held | .stuck => some id
        | .gone => none := by
  obtain ⟨_, inv⟩ := h.inv
  cases stage with
  | held =>
    have opened := inv.tabled.opened h.left
    rw [h.sector] at opened
    exact ⟨(inv.held_entry opened.entry).1, opened.entry⟩
  | stuck =>
    obtain ⟨-, entry⟩ := h.left
    exact ⟨(inv.held_entry entry).1, entry⟩
  | gone =>
    have vacated : v.Vacated s := h.left
    exact ⟨inv.space.usable s vacated.free, inv.absent_of_free vacated.free⟩

/-- Nobody has a node that stayed behind. -/
theorem Traced.closed (h : v.Traced floor total time s id c .stuck) : (v.node id).opens = 0 := by
  obtain ⟨_, inv⟩ := h.inv
  obtain ⟨doomed, entry⟩ := h.left
  rcases (inv.tabled.entry s id entry).2.2 with ⟨-, live⟩ | ⟨closed, -⟩
  · exact absurd live (inv.not_live_of_doomed doomed)
  · exact closed

omit [Promise] in
theorem Vacated.magicAt_eq (h : v.Vacated s) : v.magicAt s = 0 := by
  have zero : v.space.storage.logical s = Sector.zero := h.zero
  unfold magicAt
  rw [zero]
  exact IndexBlock.word32_zero 16

end

/-- Opening a removed inode yields the node that there is while somebody has it open, and is refused
after the last close: for good if its sectors could not be given back, and otherwise because there
is no record in its sector until that is taken again. A new node is never made for it. -/
theorem Removed.stays_removed {stage : Remains}
    (h : Removed disk log total capacity time s id v c stage) :
    Ends (openInode s) v
      (fun id' v' => stage = .held ∧ id' = id ∧ 0 < (v.node id).opens ∧
        v' = v.withNode id (fun n => { n with opens := n.opens + 1 }) ∧
        (v'.node id).removed = true)
      fun e v' => v'.nodes = v.nodes ∧ v'.table = v.table ∧
        match stage with
        | .held => False
        | .stuck => e = .fault (.released s) ∧ v.table.lookup s = some id ∧ (v.node id).opens = 0
        | .gone => e = .fault (.corrupted s 0) ∨
          (∃ cause, e = .fault (.device cause)) ∧
            v.space.storage.disk.failures < v'.space.storage.disk.failures := by
  let : Promise := promise disk total
  have traced := h.traced (fun works => works) (Nat.le_refl _) (Nat.le_of_lt total.toNat_lt)
  obtain ⟨trees, inv⟩ := traced.inv
  have left := traced.left
  refine (meets_openSector inv.space.storage traced.reaches.there).ends.mono ?_ ?_
  · intro id' v' finds
    obtain ⟨-, entry⟩ := traced.entry
    cases finds with
    | shared _ entry' opens =>
      cases stage with
      | held =>
        cases entry.symm.trans entry'
        refine ⟨rfl, rfl, opens, rfl, ?_⟩
        rw [node_withNode traced.inside, if_pos rfl]
        exact (inv.tabled.handles.removed id).2 traced.removed
      | stuck =>
        cases entry.symm.trans entry'
        exact absurd traced.closed (Nat.ne_of_gt opens)
      | gone => cases entry.symm.trans entry'
    | new _ absent valid _ =>
      cases stage with
      | held | stuck => cases entry.symm.trans absent
      | gone =>
        have vacated : v.Vacated s := traced.left
        rw [vacated.magicAt_eq] at valid
        cases valid
  · rintro _ v' ⟨e, rfl, idles, rejects⟩
    obtain ⟨usable, entry⟩ := traced.entry
    have nodes : v'.nodes = v.nodes := by rw [idles.rest]
    have table : v'.table = v.table := by rw [idles.rest]
    refine ⟨nodes, table, ?_⟩
    cases rejects with
    | outside label outside => exact absurd outside (UInt32.not_le.2 (inv.inside usable label))
    | closed _ entry' closed =>
      cases stage with
      | held =>
        cases entry.symm.trans entry'
        exact absurd closed (Nat.ne_of_gt traced.left)
      | stuck => exact ⟨rfl, entry, traced.closed⟩
      | gone => cases entry.symm.trans entry'
    | invalid _ absent invalid =>
      cases stage with
      | held | stuck => cases entry.symm.trans absent
      | gone =>
        have vacated : v.Vacated s := traced.left
        rw [vacated.magicAt_eq]
        exact .inl rfl
    | broke _ absent broke =>
      cases stage with
      | held | stuck => cases entry.symm.trans absent
      | gone =>
        obtain ⟨⟨cause, rfl⟩, failed⟩ := broke
        exact .inr ⟨⟨cause, rfl⟩, failed⟩

/-- A file in a small memory is removed and closed, and its sector is no inode any more. -/
theorem stays_removed_of_open_file : ∃ v c s id v',
    Removed (Disk.memory 16) {} 16 1 0 s id v c .gone ∧
      openInode s v = .error (.fault (.corrupted s 0)) v' ∧ v'.nodes = v.nodes := by
  let : Promise := memoryPromise
  have works : Promise.works := trivial
  obtain ⟨v, s, id, run, -, -⟩ := exists_open_file
  obtain ⟨_, inv⟩ := run.probed.inv_of_memory
  have hid : id ∈ [id] := List.mem_singleton_self id
  have here : (v.node id).sector = s := List.mem_singleton.1 (inv.opened hid).live
  obtain ⟨(_ : Unit), v₁, e₁, leads₁, -⟩ := inv.answers works (.remove id) hid fun _ _ _ no => no
  obtain ⟨_, inv₁⟩ := leads₁.inv
  obtain ⟨(_ : Unit), v₂, e₂, leads₂, -⟩ := inv₁.answers works (.closeInode id) hid fun _ _ _ no => no
  obtain ⟨_, inv₂⟩ := leads₂.inv
  have closed : (v₂.node id).opens = 0 := by
    rw [inv₂.tabled.handles.opens_eq_zero_iff]
    show id ∉ (Client.closed ..).handles.ids ∧ id ∉ (Client.closed ..).handles.lost
    rw [Client.handles_closed]
    simp [Request.answered, Handles.drop, Handles.remove]
  have held : Remains.held ≠ .gone := by decide
  have removed := (Removed.remove run.probed hid here e₁).answered (r := .closeInode id) hid e₂
    fun gone => absurd gone held
  rw [closed] at removed
  have probed := (run.probed.step (.answered (r := .remove id) hid e₁)).step
    (.answered (r := .closeInode id) hid e₂)
  cases opening : openInode s v₂ with
  | ok id' v₃ =>
    obtain ⟨no, -⟩ := removed.stays_removed.ok opening
    cases no
  | error e v₃ =>
    obtain ⟨nodes, -, rfl | ⟨-, failed⟩⟩ := removed.stays_removed.error opening
    · exact ⟨v₂, _, s, id, v₃, removed, opening, nodes⟩
    · -- in a memory none does
      obtain ⟨_, inv₃⟩ := (probed.step (.failed (r := .openInode s) (.inr ⟨s, rfl⟩) opening)).inv_of_memory
      have clean : v₃.space.storage.disk.failures = 0 := inv₃.clean works
      exact absurd failed (by rw [clean]; exact Nat.not_lt_zero _)

end Volume

end SectorVolume
