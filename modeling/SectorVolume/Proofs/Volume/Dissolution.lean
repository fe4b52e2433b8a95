import SectorVolume.Proofs.Volume.Accounting
import SectorVolume.Proofs.Volume.Registry
import SectorVolume.Proofs.Volume.Removal

/-!
# The end of a removed inode

While no transfer fails an inode keeps every sector that it ever had, whatever is written to it, cut
off from it or denied to it, and whoever opens and closes it. It gives them back with the last close
after it was removed: these and no others, each of them once.
-/

namespace SectorVolume

open SectorVolume.Action

namespace Volume

/-- The sectors of the inode at `s`: its own, and those that its record and its index blocks list.
-/
def belongings (v : Volume) (s : SectorId) : List SectorId :=
  s :: ((v.mappedOf s).data ++ (v.mappedOf s).index)

/-- From `v` to `v'` the sectors of the inode at `s` were given back, and nothing else. -/
structure Dissolved (total : UInt32) (v : Volume) (s : SectorId) (v' : Volume) : Prop where
  allocator : v'.space.allocator = .bitmap (FreeMap.ofTotal total.toNat)
  bits : ∀ k, k < bitmapSectors total.toNat * 4096 →
    ((FreeMap.ofTotal total.toNat).bit v'.space.storage.logical k = true ↔
      (FreeMap.ofTotal total.toNat).bit v.space.storage.logical k = true ∧
        ∀ id ∈ v.belongings s, id.toNat ≠ k)
  spare : v'.spare total = v.spare total + (v.belongings s).length
  absent : v'.table.lookup s = none

/-- No inode is opened at `s`: there is no record, unless a transfer fails. -/
def Bare (v : Volume) (s : SectorId) : Prop :=
  Ends (openInode s) v (fun _ _ => False) fun e v' => e = .fault (.corrupted s 0) ∨
    (∃ cause, e = .fault (.device cause)) ∧
      v.space.storage.disk.failures < v'.space.storage.disk.failures

/-- A step after which the inode at `s` is live. -/
def Sustains (s : SectorId) (_ : Request) (_ : Volume) (_ : Client) (_ : Volume) (c' : Client) :
    Prop := s ∈ c'.live

variable {disk : Disk} {log : Log} {total : UInt32} {capacity : Nat} {time : Int64}
  {v v' : Volume} {c c' : Client} {r : Request} {s : SectorId} {id : NodeId} {floor : Nat}

/-! ## What an inode has -/

/-- The sectors of a live inode, and what the client has besides. -/
theorem holdings_lose (hs : s ∈ c.live) :
    (v.holdings c).Perm (v.holdings (c.lose s) ++ v.belongings s) := by
  refine List.perm_iff_count.2 fun a => ?_
  have live := List.perm_cons_erase hs
  have below := (live.flatMap_right fun s => (v.mappedOf s).data ++ (v.mappedOf s).index).count_eq a
  have live := live.count_eq a
  unfold holdings belongings Client.inodes Client.lose
  simp only [List.flatMap_cons, List.count_append, List.count_cons] at below live ⊢
  omega

theorem belongings_subset (hs : s ∈ c.live) : v.belongings s ⊆ v.holdings c := fun _ hk =>
  (holdings_lose hs).mem_iff.2 (List.mem_append_right _ hk)

/-- Only what the live inodes list counts. -/
theorem holdings_congr (same : ∀ s ∈ c.live, v'.mappedOf s = v.mappedOf s) :
    v'.holdings c = v.holdings c := by
  unfold holdings
  refine congrArg _ (Client.flatMap_congr_of_mem fun s hs => ?_)
  rw [same s hs]

theorem belongings_of_mapped (same : v'.mappedOf s = v.mappedOf s) :
    v'.belongings s = v.belongings s := by
  unfold belongings
  rw [same]

section

variable [Promise] {trees : SectorId → Tree} {t : Tree}

theorem File.belongings_eq (f : v.File s t) : v.belongings s = s :: t.sectors := by
  unfold belongings
  rw [f.mappedOf_eq]
  rfl

/-- The bitmap of a volume that a run led to. -/
theorem Known.allocator (h : v.Known floor total time c)
    (room : 1 + bitmapSectors total.toNat < total.toNat) (words : Promise.sectors ≤ wordRange32) :
    v.space.allocator = .bitmap (FreeMap.ofTotal total.toNat) := by
  obtain ⟨v₀, fresh, follows⟩ := h.base
  obtain ⟨_, inv⟩ := h.inv
  have reach := h.reach
  exact follows.allocator_eq fresh.allocator inv.space (by omega) words (by omega)

/-- On a disk that works no transfer of a step fails. -/
theorem Known.failures_eq (h : v.Known floor total time c) (works : Promise.works)
    (step : r.Step v c v' c') :
    v'.space.storage.disk.failures = v.space.storage.disk.failures := by
  obtain ⟨_, inv⟩ := h.inv
  obtain ⟨_, inv'⟩ := (h.step step).inv
  exact (inv'.clean works).trans (inv.clean works).symm

/-! ## While the inode is live -/

/-- A step that no transfer fails takes no sector from an inode that is still live. -/
theorem Known.sustains (h : v.Known floor total time c) (step : r.Step v c v' c') (hs : s ∈ c.live)
    (hs' : s ∈ c'.live) (clean : v'.space.stock.failures = floor) :
    v.belongings s ⊆ v'.belongings s := by
  have moves := h.moves step
  obtain ⟨trees, inv⟩ := h.inv
  by_cases here : r.target v = some s
  · cases step with
    | answered allowed e =>
      cases r with
      | createInode =>
        cases here
        exact absurd hs (inv.not_live_of_blank allowed).1
      | writeAt id data offset =>
        -- what the file had is in the tree that it has now
        have o := inv.opened allowed
        rw [Option.some.inj here] at o
        obtain ⟨-, -, -, t, mapped, spends⟩ := (meets_writeAt inv o data offset).ends.ok e
        rw [(inv.files s hs).belongings_eq]
        unfold belongings
        rw [mapped]
        exact List.cons_subset_cons s spends.kept
      | setLength id length =>
        have o := inv.opened allowed
        rw [Option.some.inj here] at o
        obtain ⟨-, -, -, mapped⟩ := (meets_setLength inv o length).ends.ok e
        exact (belongings_of_mapped mapped).symm ▸ List.Subset.refl _
      | _ => cases here
    | failed tried e =>
      have allowed : r.Allowed c := tried.resolve_right (by rintro ⟨_, rfl⟩; cases here)
      -- a refusal changes nothing, and no transfer failed
      rcases (Request.ends_perform inv r allowed).error e with ⟨leads, -⟩ | ⟨_, -, -, -, failed⟩
      · exact (belongings_of_mapped (leads.same s hs id).mapped).symm ▸ List.Subset.refl _
      · exact absurd clean (inv.floor_ne failed)
  · have same := moves.same s hs (not_or.2 ⟨here, not_not_intro hs'⟩)
    exact (belongings_of_mapped same.mapped).symm ▸ List.Subset.refl _

/-- Nor does a run. -/
theorem Steps.sustains (run : Steps (Sustains s) v c v' c') (h : v.Known floor total time c)
    (hs : s ∈ c.live) :
    v'.Known floor total time c' ∧ v.Follows v' ∧ s ∈ c'.live ∧
      (v'.space.stock.failures = floor → v.belongings s ⊆ v'.belongings s) := by
  induction run with
  | refl => exact ⟨h, .refl v, hs, fun _ => List.Subset.refl _⟩
  | tail _ step kind ih =>
    obtain ⟨known, follows, live, kept⟩ := ih
    obtain ⟨_, inv⟩ := known.inv
    have moves := known.moves step
    refine ⟨known.step step, follows.trans moves.follows, kind, fun clean => ?_⟩
    have before := kept (inv.floor_eq moves.follows.stock clean)
    exact List.Subset.trans before (known.sustains step live kind clean)

/-! ## What is given back -/

section

variable {trees' : SectorId → Tree} {ids : List SectorId} (h : v.Inv floor c trees)
  (h' : v'.Inv floor c' trees')
  (allocator : v.space.allocator = .bitmap (FreeMap.ofTotal total.toNat))
  (allocator' : v'.space.allocator = .bitmap (FreeMap.ofTotal total.toNat))
  (clean : v.space.stock.failures = floor) (clean' : v'.space.stock.failures = floor)
  (perm : (v.holdings c).Perm (v'.holdings c' ++ ids))

include h h' allocator allocator' clean clean' perm

/-- The bits that are cleared are those of the sectors that the client does not have any more. -/
theorem Inv.bit_of_perm {k : Nat} (there : k < bitmapSectors total.toNat * 4096) :
    (FreeMap.ofTotal total.toNat).bit v'.space.storage.logical k = true ↔
      (FreeMap.ofTotal total.toNat).bit v.space.storage.logical k = true ∧
        ∀ id ∈ ids, id.toNat ≠ k := by
  have accounts := h.accounts allocator
  have nodup := perm.nodup_iff.1 accounts.nodup
  have inside : ∀ id ∈ ids, 1 + bitmapSectors total.toNat ≤ id.toNat ∧ id.toNat < total.toNat :=
    fun id hid => accounts.inside id (perm.mem_iff.2 (List.mem_append_right _ hid))
  rw [h.bit_iff allocator clean there, h'.bit_iff allocator' clean' there]
  constructor
  · rintro (first | past | ⟨j, hj, rfl⟩)
    · refine ⟨.inl first, fun id hid e => ?_⟩
      have := (inside id hid).1
      omega
    · refine ⟨.inr (.inl past), fun id hid e => ?_⟩
      have := (inside id hid).2
      omega
    · refine ⟨.inr (.inr ⟨j, perm.mem_iff.2 (List.mem_append_left _ hj), rfl⟩), fun id hid e => ?_⟩
      rw [UInt32.toNat_inj.1 e] at hid
      exact List.disjoint_of_nodup_append nodup hj hid
  · rintro ⟨first | past | ⟨j, hj, rfl⟩, apart⟩
    · exact .inl first
    · exact .inr (.inl past)
    · rcases List.mem_append.1 (perm.mem_iff.1 hj) with hj | hj
      · exact .inr (.inr ⟨j, hj, rfl⟩)
      · exact absurd rfl (apart j hj)

/-- There are as many more free sectors. -/
theorem Inv.spare_of_perm : v'.spare total = v.spare total + ids.length := by
  have before := h.clearBits_add allocator clean
  have after := h'.clearBits_add allocator' clean'
  have length := perm.length_eq
  rw [List.length_append] at length
  unfold spare
  omega

end

/-! ## The last close -/

/-- After the last close of a removed inode the client has all but the sectors of the inode. -/
theorem Inv.holdings_closed (h : v.Inv floor c trees) (hid : id ∈ c.handles.ids)
    (last : (v.node id).opens ≤ 1) (removed : (v.node id).removed = true) {a : Unit}
    (e : closeInode id v = .ok a v') :
    (v.holdings c).Perm (v'.holdings (Request.answered c v' (.closeInode id) a) ++
      v.belongings (v.node id).sector) := by
  have o := h.opened hid
  obtain ⟨leads, -⟩ := (Request.ends_perform h (.closeInode id) hid).ok e
  have after : Request.answered c v' (.closeInode id) a = (c.drop id).lose (v.node id).sector := by
    show c.closed id (v'.node id).sector = _
    rw [leads.follows.sector id o.inside]
    exact if_pos ((h.tabled.dead_iff hid).2 ⟨last, removed⟩)
  rw [after] at leads ⊢
  -- the other inodes list what they listed before
  have others : v'.holdings ((c.drop id).lose (v.node id).sector) =
      v.holdings (c.lose (v.node id).sector) := by
    refine holdings_congr fun s hs => ?_
    exact (leads.same s (List.mem_of_mem_erase hs) (not_or.2 ⟨nofun, not_not_intro hs⟩)).mapped
  rw [others]
  exact holdings_lose o.live

/-- What the last close of a removed inode does when no transfer fails. -/
theorem Inv.dissolved (h : v.Inv floor c trees)
    (allocator : v.space.allocator = .bitmap (FreeMap.ofTotal total.toNat))
    (allocator' : v'.space.allocator = .bitmap (FreeMap.ofTotal total.toNat))
    (hid : id ∈ c.handles.ids) (last : (v.node id).opens ≤ 1) (removed : (v.node id).removed = true)
    {a : Unit} (e : closeInode id v = .ok a v') (clean : v'.space.stock.failures = floor) :
    v.Dissolved total (v.node id).sector v' ∧ v'.Vacated (v.node id).sector := by
  obtain ⟨leads, vacates, -⟩ := (Request.ends_perform h (.closeInode id) hid).ok e
  obtain ⟨_, inv'⟩ := leads.inv
  have vacated := vacates last removed
  have clean₀ := h.floor_eq leads.follows.stock clean
  have perm := h.holdings_closed hid last removed e
  refine ⟨⟨allocator', ?_, ?_, inv'.absent_of_free vacated.free⟩, vacated⟩
  · intro k there
    exact h.bit_of_perm inv' allocator allocator' clean₀ clean perm there
  · exact h.spare_of_perm inv' allocator allocator' clean₀ clean perm

/-- There is no record in a sector that was given back. -/
theorem Vacated.bare (vacated : v.Vacated s) (h : v.Inv floor c trees) (reach : v.Reaches)
    (absent : v.table.lookup s = none) : v.Bare s := by
  refine (meets_openSector h.space.storage reach.there).ends.mono ?_ ?_
  · intro j v' finds
    cases finds with
    | shared _ entry => cases absent.symm.trans entry
    | new _ _ valid =>
      rw [vacated.magicAt_eq] at valid
      cases valid
  · rintro _ v' ⟨e, rfl, -, rejects⟩
    cases rejects with
    | outside label outside =>
      exact absurd outside (UInt32.not_le.2 (h.inside (h.space.usable s vacated.free) label))
    | closed _ entry => cases absent.symm.trans entry
    | invalid =>
      rw [vacated.magicAt_eq]
      exact .inl rfl
    | broke _ _ broke =>
      obtain ⟨⟨cause, rfl⟩, failed⟩ := broke
      exact .inr ⟨⟨cause, rfl⟩, failed⟩

end

/-- What an inode had is still there and taken in all states up to one that no transfer failed
before. -/
theorem Reachable.retains (h : Reachable disk log total capacity time v c) (hs : s ∈ c.live)
    {v₁ v₂ : Volume} {c₁ c₂ : Client} (run : Steps (Sustains s) v c v₁ c₁)
    (rest : Steps (Sustains s) v₁ c₁ v₂ c₂)
    (clean : v₂.space.storage.disk.failures = disk.failures) {k : SectorId}
    (hk : k ∈ v.belongings s) : k ∈ v₁.belongings s ∧
      (FreeMap.ofTotal total.toNat).bit v₁.space.storage.logical k.toNat = true := by
  let : Promise := promise disk total
  obtain ⟨known, -, live, kept⟩ := run.sustains h.probed.promised hs
  obtain ⟨-, follows, -, -⟩ := rest.sustains known live
  obtain ⟨_, inv⟩ := known.inv
  have there := kept (inv.floor_eq follows.stock clean) hk
  have accounts := inv.accounts (known.allocator h.room (Nat.le_of_lt total.toNat_lt))
  exact ⟨there, accounts.set k (belongings_subset live there)⟩

/-- How the last close of a removed inode ends. -/
theorem Reachable.ends_lastClose (h : Reachable disk log total capacity time v c)
    (hid : id ∈ c.handles.ids) (last : (v.node id).opens ≤ 1)
    (removed : (v.node id).removed = true) :
    Ends (closeInode id) v
      (fun _ v' => v'.space.storage.disk.failures = disk.failures →
        v.Dissolved total (v.node id).sector v' ∧ v'.Bare (v.node id).sector)
      (fun e v' => (∃ cause, e = .fault (.device cause)) ∧
        v.space.storage.disk.failures < v'.space.storage.disk.failures) := by
  let : Promise := promise disk total
  have known : v.Known disk.failures total time c := h.probed.promised
  obtain ⟨allocator, _, inv⟩ := h.inv_of_bitmap
  refine (Request.ends_perform inv (.closeInode id) hid).run.mono ?_ ?_
  · rintro _ v' ⟨-, e⟩ clean
    have known' := known.step (.answered (r := .closeInode id) hid e)
    obtain ⟨_, inv'⟩ := known'.inv
    have allocator' := known'.allocator h.room (Nat.le_of_lt total.toNat_lt)
    obtain ⟨dissolved, vacated⟩ := inv.dissolved allocator allocator' hid last removed e clean
    exact ⟨dissolved, vacated.bare inv' known'.reaches dissolved.absent⟩
  · rintro _ v' ⟨⟨-, no⟩ | ⟨_, rfl, -, ⟨cause, rfl⟩, failed⟩, -⟩
    · exact no.elim
    · exact ⟨⟨cause, rfl⟩, failed⟩

/-- While no transfer fails, a removed inode that is open by one handle has all the sectors that it
ever had, each of them once, and they are taken. Closing the handle gives back just these: it is
only stopped by a transfer that fails, the inode has no entry in the table after it, and there is no
record any more in its sector. On a disk that works the close is always answered. -/
theorem Reachable.dissolves (h : Reachable disk log total capacity time v c)
    (clean : v.space.storage.disk.failures = disk.failures) (removed : id ∈ c.handles.removed)
    (last : c.handles.ids.count id = 1) (here : (v.node id).sector = s) :
    (v.belongings s).Nodup ∧
      (∀ k ∈ v.belongings s,
        (FreeMap.ofTotal total.toNat).bit v.space.storage.logical k.toNat = true) ∧
      (∀ {v₀ v₁ : Volume} {c₀ c₁ : Client}, Reachable disk log total capacity time v₀ c₀ →
        s ∈ c₀.live → Steps (Sustains s) v₀ c₀ v₁ c₁ → Steps (Sustains s) v₁ c₁ v c →
          ∀ k ∈ v₀.belongings s, k ∈ v₁.belongings s ∧
            (FreeMap.ofTotal total.toNat).bit v₁.space.storage.logical k.toNat = true) ∧
      Ends (closeInode id) v
        (fun _ v' => v'.space.storage.disk.failures = disk.failures →
          v.Dissolved total s v' ∧ v'.Bare s)
        (fun e v' => (∃ cause, e = .fault (.device cause)) ∧
          v.space.storage.disk.failures < v'.space.storage.disk.failures) ∧
      (disk.Working total.toNat → ∃ v' v'', closeInode id v = .ok () v' ∧ v.Dissolved total s v' ∧
        openInode s v' = .error (.fault (.corrupted s 0)) v'') := by
  let : Promise := promise disk total
  subst here
  obtain ⟨allocator, trees, inv⟩ := h.inv_of_bitmap
  have hid : id ∈ c.handles.ids := List.count_pos_iff.1 (last ▸ Nat.one_pos)
  have live := (inv.opened hid).live
  have opens : (v.node id).opens ≤ 1 := by
    rw [inv.tabled.handles.opens, last, h.lost_eq clean]
    exact Nat.le_refl 1
  have closing := h.ends_lastClose hid opens ((inv.tabled.handles.removed id).2 removed)
  have accounts := inv.accounts allocator
  refine ⟨((holdings_lose live).nodup_iff.1 accounts.nodup).of_append_right, ?_, ?_, closing, ?_⟩
  · intro k hk
    exact accounts.set k (belongings_subset live hk)
  · intro v₀ v₁ c₀ c₁ h₀ live₀ run rest k hk
    exact h₀.retains live₀ run rest clean hk
  intro works
  -- no transfer fails on a disk that works
  have known : v.Known disk.failures total time c := h.probed.promised
  cases e : closeInode id v with
  | error f v' =>
    have same := known.failures_eq works (.failed (r := .closeInode id) (.inl hid) e)
    exact absurd (closing.error e).2 (Nat.not_lt.2 (Nat.le_of_eq same))
  | ok a v' =>
    have step := Request.Step.answered (r := .closeInode id) hid e
    have same := known.failures_eq works step
    obtain ⟨dissolved, bare⟩ := closing.ok e (same.trans clean)
    cases e' : openInode (v.node id).sector v' with
    | ok j v'' => exact (bare.ok e').elim
    | error f v'' =>
      have same' := (known.step step).failures_eq works (.failed (.inr ⟨_, rfl⟩) e')
      rcases bare.error e' with rfl | ⟨-, failed⟩
      · exact ⟨v', v'', rfl, dissolved, e'⟩
      · exact absurd failed (Nat.not_lt.2 (Nat.le_of_eq same'))

/-- A file in a small memory is removed, and its inode and two data sectors are given back when it
is closed. -/
theorem dissolves_of_open_file : ∃ (v v₁ v₂ v₃ : Volume) (s : SectorId) (id : NodeId) (c : Client),
    Reachable (Disk.memory 16) {} 16 1 0 v₁ c ∧ (∀ k ∈ v.belongings s, k ∈ v₁.belongings s) ∧
      2 ≤ (v₁.mappedOf s).data.length ∧ closeInode id v₁ = .ok () v₂ ∧ v₁.Dissolved 16 s v₂ ∧
        openInode s v₂ = .error (.fault (.corrupted s 0)) v₃ := by
  let : Promise := memoryPromise
  have works : Promise.works := trivial
  obtain ⟨v, s, id, run, zeros, -⟩ := exists_open_file
  obtain ⟨_, inv⟩ := run.probed.inv_of_memory
  have hid : id ∈ [id] := List.mem_singleton_self id
  have live : s ∈ [s] := List.mem_singleton_self s
  have here : (v.node id).sector = s := List.mem_singleton.1 (inv.opened hid).live
  obtain ⟨(_ : Unit), v₁, e₁, leads, -⟩ := inv.answers works (.remove id) hid fun _ _ _ no => no
  obtain ⟨trees, inv₁⟩ := leads.inv
  have run₁ := run.answered (r := .remove id) hid e₁
  have steps : Steps (Sustains s) v ⟨[], [s], [], ⟨[id], [], []⟩⟩ v₁
      ⟨[], [s], [], ⟨[id], [], [id]⟩⟩ := Steps.refl.tail (.answered (r := .remove id) hid e₁) live
  have here₁ := (leads.follows.sector id (inv.opened hid).inside).trans here
  obtain ⟨-, -, kept, -, ends⟩ := run₁.dissolves (inv₁.clean works) (List.mem_singleton_self id)
    List.count_singleton_self here₁
  obtain ⟨v₂, v₃, e₂, dissolved, e₃⟩ := ends working_memory
  have many : 2 ≤ (v₁.mappedOf s).data.length := by
    have bytes := leads.bytes s live (not_or.2 ⟨nofun, not_not_intro live⟩)
    have file := inv₁.files s live
    have room := file.room
    rw [← size_bytes, bytes, zeros, Array.size_replicate] at room
    rw [file.mappedOf_eq]
    simp only
    omega
  exact ⟨v, v₁, v₂, v₃, s, id, _, run₁, fun k hk => (kept run live steps .refl k hk).1, many, e₂,
    dissolved, e₃⟩

end Volume

end SectorVolume
