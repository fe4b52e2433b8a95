import SectorVolume.Proofs.Mapping.Creating
import SectorVolume.Proofs.Volume.Editing

/-!
# Creating and opening inodes

An inode sector is a free sector before it is handed out. A new inode is a file of zeros, and
opening a live inode yields a node for it. None of this changes another file, and what fails because
of too few sectors or because of the disk takes nothing that is not handed on.
-/

namespace SectorVolume

open SectorVolume.Action

namespace Volume

theorem read_view (b : Sector) : Record.view.read b 0 = .ok (Record.ofSector b) := by
  have window : b.window 0 512 (by decide) = b := by
    refine Vector.ext fun i hi => ?_
    unfold Sector.window
    rw [Vector.getElem_ofFn]
    simp only [Nat.zero_add]
  have bytes : Record.view.bytes b 0 = .ok (b.window 0 512 (by decide)) := rfl
  unfold View.read
  rw [bytes, window]
  rfl

/-- The word of a sector that tells a record from other content. -/
def magicAt (v : Volume) (s : SectorId) : UInt32 :=
  (Record.ofSector (v.space.storage.logical s)).magic

/-- The volume with a new node for the inode at `s`. -/
def opened (v : Volume) (s : SectorId) : Volume :=
  ⟨v.space, v.superblock, v.nodes.push (Node.ofRecord s (v.recordOf s)),
    v.table.insert s v.nodes.size⟩

theorem node_opened (v : Volume) (s : SectorId) (j : NodeId) : (v.opened s).node j =
    if j = v.nodes.size then Node.ofRecord s (v.recordOf s) else v.node j := getD_push ..

theorem lookup_opened (v : Volume) (s s' : SectorId) : (v.opened s).table.lookup s' =
    if s' = s then some v.nodes.size else v.table.lookup s' := OpenTable.lookup_insert ..

variable [Promise] {v v' : Volume} {s : SectorId} {t : Tree} {id : NodeId} {c : Client}
  {floor : Nat} {trees : SectorId → Tree}

/-- The node stands for the inode at `s` as it is in `v`. -/
structure Shows (v : Volume) (s : SectorId) (n : Node) : Prop where
  sector : n.sector = s
  record : n.record = v.recordOf s
  length : n.length = v.lengthOf s
  kind : n.isDirectory = v.kindOf s

omit [Promise] in
theorem shows_ofRecord (absent : v.table.lookup s = none) :
    v.Shows s (Node.ofRecord s (v.recordOf s)) := by
  refine ⟨rfl, rfl, ?_, ?_⟩
  · rw [lengthOf_of_none absent, ← recordOf_of_none absent]
    rfl
  · rw [kindOf_of_none absent, ← recordOf_of_none absent]
    rfl

/-! ## New inodes -/

namespace Inv

/-- The client takes sectors for inodes. Beside these only free sectors may have changed. -/
theorem keeps_take (h : v.Inv floor c trees) {sp : Space} (sound : sp.Sound)
    {ids blank : List SectorId} {X : SectorId → Prop}
    (took : Stock.Took X ids v.space.stock sp.stock) (hX : ∀ s, X s → v.space.stock.free s)
    (perm : blank.Perm (c.blank ++ ids)) :
    v.Keeps floor c Stock.nowhere { v with space := sp } { c with blank } := by
  have untouched : ∀ s ∈ c.live, Untouched v { v with space := sp } s (trees s) := by
    intro s hs
    refine h.untouched_of_entry hs rfl (fun _ _ => rfl) took.spares fun k hk free => ?_
    rcases hk with rfl | hk
    · exact (h.held_inode (Client.mem_inodes_live hs)).2 (hX k free)
    · exact ((h.files s hs).tree.held k hk).2 (hX k free)
  refine ⟨⟨trees, sound, h.owns.took h.space.usable took ?_, fun s hs =>
    (h.files s hs).untouched (untouched s hs),
    ⟨h.tabled.entry, h.tabled.present, h.tabled.doomed, h.tabled.handles⟩,
    fun sb e => Nat.le_trans (Nat.le_of_eq took.bound) (h.bound sb e),
    fun e s hs => (untouched s hs).coherent (h.current (h.floor_eq took.toFollows e) s hs),
    fun e => h.undoomed (h.floor_eq took.toFollows e)⟩,
    follows_space h.space took.spares fun s hs => h.space.usable s (hX s hs),
    fun s hs _ => (h.files s hs).matches_untouched (untouched s hs), fun _ _ => rfl⟩
  refine List.perm_iff_count.2 fun a => ?_
  have count := perm.count_eq a
  unfold Client.sectors Client.inodes
  simp only [List.count_append] at count ⊢
  omega

theorem take (h : v.Inv floor c trees) {sp : Space} (sound : sp.Sound) {ids blank : List SectorId}
    (took : Stock.Took Stock.nowhere ids v.space.stock sp.stock) (perm : blank.Perm (c.blank ++ ids)) :
    v.Leads floor c Stock.nowhere { v with space := sp } { c with blank } :=
  ⟨h.keeps_take sound took (fun _ no => no.elim) perm, h.spared_nowhere took.spares⟩

theorem refuse (h : v.Inv floor c trees) {sp : Space} (sound : sp.Sound)
    (took : Stock.Took Stock.nowhere [] v.space.stock sp.stock) :
    v.Leads floor c Stock.nowhere { v with space := sp } c :=
  h.take sound took (by rw [List.append_nil])

theorem not_live_of_doomed (h : v.Inv floor c trees) (hs : s ∈ c.doomed) : s ∉ c.live := by
  have nodup : (c.blank ++ c.doomed ++ c.live).Nodup := h.owns.nodup.of_append_left
  exact fun hs' => List.disjoint_of_nodup_append nodup (List.mem_append_right _ hs) hs'

/-- As long as nobody has anything open, the table leads to no live inode. -/
theorem lookup_of_closed (h : v.Inv floor c trees) (closed : c.handles = .empty) (hs : s ∈ c.live) :
    v.table.lookup s = none := by
  cases e : v.table.lookup s with
  | none => rfl
  | some id =>
    have opens := h.tabled.handles.opens id
    rw [closed] at opens
    rcases (h.tabled.entry s id e).2.2 with ⟨some, -⟩ | ⟨-, doomed⟩
    · exact absurd opens (Nat.ne_of_gt some)
    · exact absurd hs (h.not_live_of_doomed doomed)

/-- The sector of whatever the table leads to is taken. -/
theorem held_entry (h : v.Inv floor c trees) (e : v.table.lookup s = some id) :
    v.space.stock.Held s := by
  rcases (h.tabled.entry s id e).2.2 with ⟨-, live⟩ | ⟨-, doomed⟩
  · exact h.held_inode (Client.mem_inodes_live live)
  · exact h.held_inode (Client.mem_inodes_doomed doomed)

/-- The table does not lead to a free sector. -/
theorem absent_of_free (h : v.Inv floor c trees) (free : v.space.stock.free s) :
    v.table.lookup s = none := by
  cases entry : v.table.lookup s with
  | none => rfl
  | some id => exact absurd free (h.held_entry entry).2

theorem lookup_of_blank (h : v.Inv floor c trees) (hs : s ∈ c.blank) : v.table.lookup s = none := by
  obtain ⟨notLive, notDoomed⟩ := h.not_live_of_blank hs
  cases e : v.table.lookup s with
  | none => rfl
  | some id =>
    rcases (h.tabled.entry s id e).2.2 with live | doomed
    · exact absurd live.2 notLive
    · exact absurd doomed.2 notDoomed

end Inv

/-- The sector that is handed out was free, and keeps its content, or there is none. -/
theorem meets_allocateInode (h : v.Inv floor c trees) :
    Meets allocateInode v
      (fun s v' => v.Leads floor c Stock.nowhere v' { c with blank := s :: c.blank } ∧
        v.space.stock.free s ∧ v'.space.stock.content s = v.space.stock.content s)
      (fun e v' => v.Leads floor c Stock.nowhere v' c ∧
        Stock.Denies 1 v.space.stock v'.space.stock e) := by
  unfold allocateInode
  refine (meets_onSpace (Space.meets_allocate h.space (by decide))).bind (fun ids v₁ h₁ => meets_pure ?_)
    fun e v₁ h₁ => ?_
  · obtain ⟨⟨sound, length, took⟩, e₁⟩ := h₁
    obtain ⟨s, rfl⟩ := List.length_eq_one_iff.1 length
    have perm : ([s] ++ c.blank).Perm (c.blank ++ [s]) := List.perm_append_comm
    rw [e₁]
    have free := took.free s (List.mem_singleton_self s)
    exact ⟨h.take sound took.toTook perm, free, took.still s (h.space.usable s free).2.1⟩
  · obtain ⟨⟨sound, took, why⟩, e₁⟩ := h₁
    rw [e₁]
    exact ⟨h.refuse sound took.toTook, why⟩

/-- The inode at a sector that was handed out is created, with a tree of new sectors. -/
theorem Inv.create (h : v.Inv floor c trees) (hs : s ∈ c.blank) {sp : Space} (sound : sp.Sound)
    (tree : t.Sound sp.stock) (took : Stock.Took (· = s) t.sectors v.space.stock sp.stock)
    (zero : ∀ id ∈ t.data, sp.stock.content id = Sector.zero)
    (record : sp.stock.content s = t.record.toSector) (valid : t.record.isValid = true)
    (room : t.record.length.toNat ≤ 512 * t.data.length) :
    v.Leads floor c Stock.nowhere { v with space := sp }
        { c with blank := c.blank.erase s, live := s :: c.live } ∧
      { v with space := sp }.bytes s = Array.replicate t.record.length.toNat 0 ∧
      { v with space := sp }.mappedOf s = ⟨t.data, t.blocks⟩ := by
  obtain ⟨notLive, -⟩ := h.not_live_of_blank hs
  have ne : ∀ s' ∈ c.live, s' ≠ s := fun s' hs' e => notLive (e ▸ hs')
  have lookup : ({ v with space := sp } : Volume).table.lookup s = none := h.lookup_of_blank hs
  have content : ({ v with space := sp } : Volume).space.storage.logical s = t.record.toSector := record
  have recordOf : { v with space := sp }.recordOf s = t.record := by
    rw [recordOf_of_none lookup, content, Record.ofSector_toSector]
  have lengthOf : { v with space := sp }.lengthOf s = t.record.length.toNat := by
    rw [lengthOf_of_none lookup, content, Record.ofSector_toSector]
  have kindOf : { v with space := sp }.kindOf s = t.record.isDirectory := by
    rw [kindOf_of_none lookup, content, Record.ofSector_toSector]
  have zeros : ∀ i, byteIn sp.stock.content t.data i = 0 := by
    intro i
    cases e : t.data[i / 512]? with
    | none => exact byteIn_of_none e
    | some id => rw [byteIn_of_some e, zero id (List.mem_of_getElem? e), Sector.getElem_zero]
  have file : { v with space := sp }.File s t :=
    ⟨recordOf.symm, tree, valid, kindOf, lengthOf ▸ room, fun i _ => zeros i⟩
  have others : ∀ s' ∈ c.live, Untouched v { v with space := sp } s' (trees s') := by
    intro s' hs'
    refine h.untouched_of_entry hs' rfl (fun _ _ => rfl) took.spares ?_
    rintro id (rfl | hid) rfl
    · exact notLive hs'
    · exact Client.not_mem_tree h.owns.nodup hs' (Client.mem_inodes_blank hs) hid
  have held := h.held_inode (Client.mem_inodes_blank hs)
  have spared : v.Spared c Stock.nowhere { v with space := sp }
      { c with blank := c.blank.erase s, live := s :: c.live } := by
    refine h.spared took.spares (fun k hk free => absurd free (hk ▸ held.2)) fun k _ created hk => ?_
    have nodup : c.blank.Nodup := h.owns.nodup.of_append_left.of_append_left.of_append_left
    exact nodup.not_mem_erase (hk ▸ created)
  refine ⟨⟨⟨⟨Function.update trees s t, sound, ?_, fun s' hs' => ?_, ⟨fun s' id e => ?_,
    h.tabled.present, h.tabled.doomed, h.tabled.handles⟩, fun sb e => ?_, fun e s' hs' => ?_,
    fun e => h.undoomed (h.floor_eq took.toFollows e)⟩,
    follows_space h.space took.spares fun _ e => e ▸ held.1, fun s' hs' _ => ?_, fun _ _ => rfl⟩,
    spared⟩, ?_, file.mappedOf_eq⟩
  · refine h.owns.took h.space.usable took (List.perm_iff_count.2 fun a => ?_)
    have blank := (List.perm_cons_erase hs).count_eq a
    have same : c.live.flatMap (fun s' => (Function.update trees s t s').sectors) =
        c.live.flatMap fun s' => (trees s').sectors := by
      refine Client.flatMap_congr_of_mem fun s' hs' => ?_
      rw [Function.update_of_ne (ne s' hs')]
    unfold Client.sectors Client.inodes
    simp only [List.flatMap_cons, same, Function.update_self, List.count_append,
      List.count_cons] at blank ⊢
    omega
  · rcases List.mem_cons.1 hs' with rfl | hs'
    · rw [Function.update_self]
      exact file
    · rw [Function.update_of_ne (ne s' hs')]
      exact (h.files s' hs').untouched (others s' hs')
  · obtain ⟨sector, inside, state⟩ := h.tabled.entry s' id e
    exact ⟨sector, inside, state.imp_left fun live => ⟨live.1, List.mem_cons_of_mem _ live.2⟩⟩
  · exact Nat.le_trans (Nat.le_of_eq took.bound) (h.bound sb e)
  · rcases List.mem_cons.1 hs' with rfl | hs'
    · exact coherent_of_none lookup
    · exact (others s' hs').coherent (h.current (h.floor_eq took.toFollows e) s' hs')
  · exact (h.files s' hs').matches_untouched (others s' hs')
  · refine Bytes.ext_getD ?_ fun i => ?_
    · rw [size_bytes, lengthOf, Array.size_replicate]
    · refine (file.getD_bytes i).trans ((zeros i).trans ?_)
      rw [Array.getD_eq_getD_getElem?, Array.getElem?_replicate]
      split
      · rfl
      · rfl

/-- A new inode is a file of zeros. If it cannot be created nothing is taken. -/
theorem meets_createInode (h : v.Inv floor c trees) (hs : s ∈ c.blank) (length : Nat)
    (isDirectory : Bool) :
    Meets (createInode s length isDirectory) v
      (fun _ v' => v.Leads floor c Stock.nowhere v'
          { c with blank := c.blank.erase s, live := s :: c.live } ∧
        length ≤ maxFileSize ∧ v'.bytes s = Array.replicate length 0 ∧
        (v'.mappedOf s).data.length = dataSectors length)
      (fun e v' => (v.Leads floor c Stock.nowhere v' c ∧
            (maxFileSize < length ∧ e = .sizeLimit length maxFileSize ∨
              e = .exhausted (totalSectors (dataSectors length)) ∧
                v.space.stock.Lacks v'.space.stock (totalSectors (dataSectors length))) ∨
          v.Keeps floor c Stock.nowhere v' c ∧ Stock.Broke v.space.stock v'.space.stock e ∧
            v.Spared c (· ∈ v.space.drawn (totalSectors (dataSectors length))) v' c) ∧
        Stock.Restores v.space.stock v'.space.stock e) := by
  unfold createInode
  by_cases large : length > maxFileSize
  · rw [if_pos large]
    refine (meets_note h.space _ (f := fun _ _ => False)).bind (fun _ v₁ h₁ => ?_)
      fun _ _ no => no.elim
    refine (meets_fail (f := fun e v' => e = .sizeLimit length maxFileSize ∧ v' = v₁) ⟨rfl, rfl⟩).bind
      (d := fun _ _ => False) (fun _ _ no => no.elim) fun e v₂ h₂ => ?_
    rw [h₂.2, h₁.2]
    have gave := Space.Rests.gave h₁.1
    exact ⟨.inl ⟨h.leads_rests h₁.1, .inl ⟨large, h₂.1⟩⟩, fun id free =>
      (gave.back id free).resolve_right List.not_mem_nil, fun _ => gave.kept⟩
  · rw [if_neg large]
    have le := Nat.not_lt.1 large
    have words : maxFileSize < 2 ^ 32 := by decide
    have e : (Record.make (UInt32.ofNat length) isDirectory).length.toNat = length :=
      UInt32.toNat_ofNat_of_lt' (Nat.lt_of_le_of_lt le words)
    have held := h.held_inode (Client.mem_inodes_blank hs)
    refine (meets_withRecord (Mapping.meets_createRecord (m := ⟨v.space, _⟩) h.space rfl le e
      held)).bind (fun _ v₁ h₁ => ?_) fun e v₁ h₁ => ?_
    · obtain ⟨⟨r, t, creates, many, record⟩, e₁⟩ := h₁
      have rest : t.record.withoutSectors = (Record.make (UInt32.ofNat length) isDirectory) :=
        (congrArg Record.withoutSectors creates.sound.record).trans creates.rest
      have long : t.record.length.toNat = length :=
        (congrArg (fun r => (Record.length r).toNat) rest).trans e
      have valid : t.record.isValid = true :=
        (Record.isValid_of_rest (r := Record.make (UInt32.ofNat length) isDirectory) rest).trans
          (beq_self_eq_true recordMagic)
      have room : t.record.length.toNat ≤ 512 * t.data.length := by
        have size : sectorSize = 512 := rfl
        rw [long, many, dataSectors, size]
        omega
      obtain ⟨leads, bytes, mapped⟩ := h.create hs creates.sound.space creates.sound.tree creates.took
        creates.zero record valid room
      rw [e₁]
      refine (meets_note (v := { v with space := v₁.space }) creates.sound.space _).mono
        (fun _ v₂ h₂ => ?_) fun _ _ no => no
      rw [h₂.2]
      refine ⟨leads.rests h₂.1, le, ?_, ?_⟩
      · rw [bytes_of_rests h₂.1, bytes, long]
      · rw [(matches_of_rests h₂.1 s).mapped, mapped, many]
    · obtain ⟨⟨_, refuses⟩, e₁⟩ := h₁
      have drawn : ∀ s ∈ v.space.drawn (totalSectors (dataSectors length)), v.space.stock.free s :=
        fun _ => Space.free_of_drawn h.space (listable_totalSectors (dataSectors_le le))
      have keeps := h.keeps_take refuses.sound refuses.took drawn (by rw [List.append_nil])
      have spared : v.Spared c (· ∈ v.space.drawn (totalSectors (dataSectors length)))
          { v with space := v₁.space } c := h.spared refuses.took.spares (fun _ hk _ => hk)
        fun k blank _ hk => (h.held_inode (Client.mem_inodes_blank blank)).2 (drawn k hk)
      rw [e₁]
      refine ⟨?_, refuses.why.restores refuses.took⟩
      rcases refuses.clean with broke | took
      · exact .inr ⟨keeps, broke, spared⟩
      · rcases refuses.why with lacks | ⟨broke, -⟩
        · exact .inl ⟨h.refuse refuses.sound took, .inr lacks⟩
        · exact .inr ⟨keeps, broke, spared⟩

/-! ## Handles -/

/-- A node is opened once more. -/
theorem Inv.openAgain (h : v.Inv floor c trees) (o : v.Opened c id s) :
    v.Leads floor c Stock.nowhere (v.withNode id fun n => { n with opens := n.opens + 1 })
      { c with handles := c.handles.add id } :=
  h.keep (f := fun n => { n with opens := n.opens + 1 }) o h.space (.refl _) ⟨_, rfl⟩ rfl
    ⟨rfl, rfl⟩ (Nat.succ_pos _) (h.tabled.handles.add rfl rfl) (h.saved o)

/-- A node is made for a live inode that has none. -/
theorem Inv.openFirst (h : v.Inv floor c trees) (hs : s ∈ c.live)
    (absent : v.table.lookup s = none) :
    v.Leads floor c Stock.nowhere (v.opened s) { c with handles := c.handles.add v.nodes.size } := by
  have fresh : v.node v.nodes.size = default := by
    unfold node
    rw [Array.getD_eq_getD_getElem?, Array.getElem?_eq_none (Nat.le_refl _)]
    rfl
  have node := node_opened v s
  have lookup := lookup_opened v s
  have old : ∀ {s' : SectorId} {id : NodeId}, v.table.lookup s' = some id →
      (v.opened s).node id = v.node id := by
    intro s' id e
    rw [node, if_neg (Nat.ne_of_lt (h.tabled.entry s' id e).2.1)]
  have refl : Stock.Spares Stock.nowhere v.space.stock (v.opened s).space.stock :=
    (Stock.Took.refl v.space.stock).spares
  have dead : ∀ s' ∈ c.doomed, s' ≠ s := fun s' hs' e => h.not_live_of_doomed hs' (e ▸ hs)
  have others : ∀ s' ∈ c.live, Untouched v (v.opened s) s' (trees s') := by
    intro s' hs'
    by_cases e : s' = s
    · subst e
      have entry := (lookup s').trans (if_pos rfl)
      have here := (node v.nodes.size).trans (if_pos rfl)
      refine h.untouched hs' ⟨?_, ?_, ?_, rfl⟩ refl fun _ _ no => no
      · rw [recordOf_of_some entry, here]
        rfl
      · rw [lengthOf_of_some entry, here]
        exact (shows_ofRecord absent).length
      · rw [kindOf_of_some entry, here]
        exact (shows_ofRecord absent).kind
    · exact h.untouched_of_entry hs' ((lookup s').trans (if_neg e))
        (fun id e => old e) refl fun _ _ no => no
  refine ⟨⟨⟨trees, h.space, h.owns.perm (.refl _), fun s' hs' => (h.files s' hs').untouched (others s' hs'),
    ⟨fun s' id e => ?_, fun j opens => ?_, fun s' hs' => ?_, ?_⟩, h.bound,
      fun e s' hs' => (others s' hs').coherent (h.current e s' hs'), h.undoomed⟩,
    ⟨.refl _, rfl, fun _ _ _ => rfl,
      Nat.le_of_lt (Nat.lt_of_lt_of_eq (Nat.lt_succ_self _) (Array.size_push ..).symm),
      fun j lt => by rw [node, if_neg (Nat.ne_of_lt lt)]⟩,
    fun s' hs' _ => (h.files s' hs').matches_untouched (others s' hs'),
    fun s' hs' => (lookup s').trans (if_neg (dead s' hs'))⟩, h.spared_nowhere refl⟩
  · rw [lookup] at e
    by_cases here : s' = s
    · rw [if_pos here] at e
      cases e
      rw [node, if_pos rfl]
      refine ⟨here.symm, ?_, .inl ⟨Nat.one_pos, here ▸ hs⟩⟩
      exact Nat.lt_of_lt_of_eq (Nat.lt_succ_self _) (Array.size_push ..).symm
    · rw [if_neg here] at e
      obtain ⟨sector, inside, state⟩ := h.tabled.entry s' id e
      rw [old e]
      exact ⟨sector, Nat.lt_of_lt_of_eq (Nat.lt_succ_of_lt inside) (Array.size_push ..).symm, state⟩
  · rw [node] at opens ⊢
    by_cases here : j = v.nodes.size
    · rw [if_pos here, lookup, here]
      exact if_pos rfl
    · rw [if_neg here] at opens ⊢
      have entry := h.tabled.present j opens
      rw [lookup, if_neg fun e => ?_]
      · exact entry
      · rw [e, absent] at entry
        cases entry
  · obtain ⟨id, entry⟩ := h.tabled.doomed s' hs'
    exact ⟨id, (lookup s').trans ((if_neg (dead s' hs')).trans entry)⟩
  · rw [funext node]
    refine h.tabled.handles.add ?_ ?_
    · rw [fresh]
      rfl
    · rw [fresh]
      rfl

/-- Only the storage changed, and not its content. -/
structure Idles (v v' : Volume) : Prop where
  storage : Storage.Same Promise.works Promise.sectors [] v.space.storage v'.space.storage
  allocator : v'.space.allocator = v.space.allocator
  rest : v' = { v with space := v'.space }

/-- The cache of a volume is well-formed and true to the disk. -/
abbrev Intact (v : Volume) : Prop := v.space.storage.Good Promise.works Promise.sectors []

theorem Intact.idles (h : v.Intact) : v.Idles v := ⟨h.same, rfl, rfl⟩

theorem Idles.intact (h : v.Idles v') : v'.Intact := h.storage.good

theorem Idles.trans {v'' : Volume} (h : v.Idles v') (h' : v'.Idles v'') : v.Idles v'' := by
  refine ⟨h.storage.trans h'.storage, h'.allocator.trans h.allocator, h'.rest.trans ?_⟩
  rw [h.rest]

theorem Idles.rests (h : v.Idles v') (sound : v.space.Sound) : v.space.Rests v'.space :=
  sound.rewrites (fun _ _ => rfl) h.storage h.allocator

theorem Leads.idle {X : SectorId → Prop} {c' : Client} {v'' : Volume} (h : v.Leads floor c X v' c')
    (idles : v'.Idles v'') : v.Leads floor c X v'' c' := by
  obtain ⟨_, inv⟩ := h.inv
  rw [idles.rest]
  exact h.rests (idles.rests inv.space)

theorem Inv.idle (h : v.Inv floor c trees) (idles : v.Idles v') :
    v.Leads floor c Stock.nowhere v' c := by
  rw [idles.rest]
  exact h.leads_rests (idles.rests h.space)

theorem meets_note_idles (h : v.Intact) (e : Event) {f : Fault → Volume → Prop} :
    Meets (note e) v (fun _ v' => v.Idles v') f :=
  (meets_onSpace (Space.meets_lift (Storage.meets_note h e (f := fun _ _ => False)))).mono
    (fun _ _ h' => ⟨h'.1.1, h'.1.2, h'.2⟩) fun _ _ no => no.1.1.elim

/-- How opening `s` succeeds with node `id`. -/
inductive Finds (v : Volume) (s : SectorId) : NodeId → Volume → Prop where
  /-- There is a node that somebody has open. -/
  | shared {id : NodeId} (inside : ∀ sb, v.superblock = some sb → s < sb.totalSectors)
    (entry : v.table.lookup s = some id) (opens : 0 < (v.node id).opens) :
    Finds v s id (v.withNode id fun n => { n with opens := n.opens + 1 })
  /-- A node is made for what looks like a record. -/
  | new {v' : Volume} (inside : ∀ sb, v.superblock = some sb → s < sb.totalSectors)
    (absent : v.table.lookup s = none) (valid : v.magicAt s = recordMagic)
    (idles : (v.opened s).Idles v') : Finds v s v.nodes.size v'

/-- Why opening `s` ends in a fault and in `v'`. -/
inductive Rejects (v : Volume) (s : SectorId) (v' : Volume) : Fault → Prop where
  | outside {sb : Superblock} (label : v.superblock = some sb) (outside : sb.totalSectors ≤ s) :
    Rejects v s v' (.outOfRange s sb.totalSectors)
  | closed {id : NodeId} (inside : ∀ sb, v.superblock = some sb → s < sb.totalSectors)
    (entry : v.table.lookup s = some id) (closed : (v.node id).opens = 0) :
    Rejects v s v' (.released s)
  | invalid (inside : ∀ sb, v.superblock = some sb → s < sb.totalSectors)
    (absent : v.table.lookup s = none) (invalid : v.magicAt s ≠ recordMagic) :
    Rejects v s v' (.corrupted s (v.magicAt s))
  | broke {e : Fault} (inside : ∀ sb, v.superblock = some sb → s < sb.totalSectors)
    (absent : v.table.lookup s = none)
    (broke : Stock.Broke v.space.stock v'.space.stock e) : Rejects v s v' e

/-- The record of a sector that has no node is read. -/
theorem meets_readInode (h : v.Intact) (there : s.toNat < Promise.sectors)
    (inside : ∀ sb, v.superblock = some sb → s < sb.totalSectors)
    (absent : v.table.lookup s = none) :
    Meets (readInode s) v (fun id v' => v.Finds s id v')
      (fun e v' => v.Idles v' ∧ v.Rejects s v' e) := by
  have reading := meets_onSpace (Space.meets_lift (Storage.meets_readView h there (read_view _)))
  unfold readInode
  refine reading.bind (fun r v₁ h₁ => ?_) fun e v₁ h₁ => ?_
  · obtain ⟨⟨⟨rfl, same⟩, allocator⟩, e₁⟩ := h₁
    have idles : v.Idles v₁ := ⟨same, allocator, e₁⟩
    by_cases valid : v.magicAt s = recordMagic
    · have accepted : (Record.ofSector (v.space.storage.logical s)).isValid = true :=
        beq_iff_eq.2 valid
      rw [accepted, e₁, ← recordOf_of_none absent]
      simp only [Bool.not_true, Bool.false_eq_true, if_false]
      refine meets_get (meets_modify ?_)
      have new : (v.opened s).Idles { v.opened s with space := v₁.space } := ⟨same, allocator, rfl⟩
      have noting := meets_note_idles new.intact (.inodeOpened s) (f := fun _ _ => False)
      exact noting.bind (fun _ v₂ h₂ => meets_pure (.new inside absent valid (new.trans h₂)))
        fun _ _ no => no.elim
    · have refused : (Record.ofSector (v.space.storage.logical s)).isValid = false :=
        beq_false_of_ne valid
      rw [refused]
      simp only [Bool.not_false, if_true]
      refine (meets_note_idles idles.intact _ (f := fun _ _ => False)).bind (fun _ v₂ h₂ => ?_)
        fun _ _ no => no.elim
      refine (meets_fail (f := fun e v' => e = .corrupted s (v.magicAt s) ∧ v' = v₂)
        ⟨rfl, rfl⟩).bind (d := fun _ _ => False) (fun _ _ no => no.elim) fun e v₃ h₃ => ?_
      obtain ⟨rfl, rfl⟩ := h₃
      exact ⟨idles.trans h₂, .invalid inside absent valid⟩
  · obtain ⟨⟨⟨device, -, failed, same⟩, allocator⟩, e₁⟩ := h₁
    exact ⟨⟨same, allocator, e₁⟩, .broke inside absent ⟨device, failed⟩⟩

/-- Opening a sector yields its node or a new one, or changes nothing. -/
theorem meets_openSector (h : v.Intact)
    (there : (∀ sb, v.superblock = some sb → s < sb.totalSectors) → s.toNat < Promise.sectors) :
    Meets (openInode s) v (fun id v' => v.Finds s id v')
      (fun e v' => v.Idles v' ∧ v.Rejects s v' e) := by
  unfold openInode
  refine meets_get ?_
  extract_lets look
  have rest (inside : ∀ sb, v.superblock = some sb → s < sb.totalSectors) : Meets (look ⟨⟩) v
      (fun id v' => v.Finds s id v') (fun e v' => v.Idles v' ∧ v.Rejects s v' e) := by
    refine meets_get ?_
    cases e : v.table.lookup s with
    | some id =>
      refine meets_getNode ?_
      by_cases closed : (v.node id).opens = 0
      · rw [if_pos closed]
        refine (meets_note_idles h _ (f := fun _ _ => False)).bind (fun _ v₁ h₁ => ?_)
          fun _ _ no => no.elim
        refine (meets_fail (f := fun e v' => e = .released s ∧ v' = v₁) ⟨rfl, rfl⟩).bind
          (d := fun _ _ => False) (fun _ _ no => no.elim) fun e' v₂ h₂ => ?_
        obtain ⟨rfl, rfl⟩ := h₂
        exact ⟨h₁, .closed inside e closed⟩
      · rw [if_neg closed]
        exact meets_modifyNode (meets_pure (.shared inside e (Nat.pos_of_ne_zero closed)))
    | none => exact meets_readInode h (there inside) inside e
  cases e : v.superblock with
  | none => exact rest fun sb e' => absurd (e.symm.trans e') nofun
  | some sb =>
    simp only
    by_cases outside : s ≥ sb.totalSectors
    · rw [if_pos outside]
      exact (meets_fail (f := fun e' v' => e' = .outOfRange s sb.totalSectors ∧ v' = v)
        ⟨rfl, rfl⟩).bind (d := fun _ _ => False) (fun _ _ no => no.elim) fun e' v₁ h₁ => by
          obtain ⟨rfl, rfl⟩ := h₁
          exact ⟨h.idles, .outside e outside⟩
    · rw [if_neg outside]
      refine rest fun sb' e' => ?_
      cases e.symm.trans e'
      exact UInt32.not_le.1 outside

/-- What users can have is within the volume. -/
theorem Inv.inside (h : v.Inv floor c trees) (usable : v.space.stock.Usable s) {sb : Superblock}
    (label : v.superblock = some sb) : s < sb.totalSectors :=
  UInt32.lt_iff_toNat_lt.2 (Nat.lt_of_lt_of_le usable.2.2.1 (h.bound sb label))

/-- A live inode can be opened unless the disk fails. -/
theorem meets_openInode (h : v.Inv floor c trees) (hs : s ∈ c.live) :
    Meets (openInode s) v
      (fun id v' => v.Leads floor c Stock.nowhere v' { c with handles := c.handles.add id } ∧
        v.Shows s (v'.node id))
      (fun e v' => v.Breaks floor c Stock.nowhere e v' c) := by
  have held := h.held_inode (Client.mem_inodes_live hs)
  refine (meets_openSector h.space.storage fun _ => held.1.lt).mono ?_ ?_
  · rintro id v' (⟨-, entry, opens⟩ | ⟨-, absent, valid, idles⟩)
    · obtain ⟨sector, inside, -⟩ := h.tabled.entry s id entry
      refine ⟨h.openAgain ⟨hs, entry, sector, inside, opens⟩, ?_⟩
      rw [node_withNode inside, if_pos rfl]
      exact ⟨sector, (recordOf_of_some entry).symm, (lengthOf_of_some entry).symm,
        (kindOf_of_some entry).symm⟩
    · refine ⟨(h.openFirst hs absent).idle idles, ?_⟩
      have here : v'.node v.nodes.size = (v.opened s).node v.nodes.size := by rw [idles.rest]; rfl
      rw [here, node_opened, if_pos rfl]
      exact shows_ofRecord absent
  · rintro e v' ⟨idles, rejects⟩
    refine ⟨h.idle idles, ?_⟩
    cases rejects with
    | outside label outside => exact absurd outside (UInt32.not_le.2 (h.inside held.1 label))
    | closed _ entry closed =>
      rcases (h.tabled.entry s _ entry).2.2 with live | doomed
      · exact absurd closed (Nat.ne_of_gt live.1)
      · exact absurd hs (h.not_live_of_doomed doomed.2)
    | invalid _ absent invalid =>
      have file := h.files s hs
      refine absurd (beq_iff_eq.1 file.valid) ?_
      rw [file.record, recordOf_of_none absent]
      exact invalid
    | broke _ _ broke => exact broke

theorem meets_reopen (h : v.Inv floor c trees) (o : v.Opened c id s) {f : Fault → Volume → Prop} :
    Meets (reopen id) v
      (fun _ v' => v.Leads floor c Stock.nowhere v' { c with handles := c.handles.add id }) f := by
  unfold reopen
  refine meets_getNode ?_
  rw [if_neg (Nat.ne_of_gt o.opens)]
  exact meets_modifyNode (meets_pure (h.openAgain o))

/-- What is noted in a node beside its record, its length and its openers changes no file. -/
theorem Inv.mark (h : v.Inv floor c trees) (o : v.Opened c id s) {f : Node → Node}
    (same : ∀ n, (f n).record = n.record ∧ (f n).length = n.length ∧
      ((f n).sector = n.sector ∧ (f n).isDirectory = n.isDirectory) ∧ (f n).opens = n.opens)
    {handles : Handles}
    (counts : handles.Counts fun j => if j = id then f (v.node id) else v.node j) :
    v.Leads floor c Stock.nowhere (v.withNode id f) { c with handles } := by
  obtain ⟨record, length, fixed, opens⟩ := same (v.node id)
  refine h.keep (f := f) o h.space (.refl _) ⟨_, record⟩ length fixed
    (Nat.lt_of_lt_of_eq o.opens opens.symm) counts fun e => ?_
  unfold Node.currentRecord
  rw [record, length]
  exact h.saved o e

theorem meets_remove (h : v.Inv floor c trees) (o : v.Opened c id s) {f : Fault → Volume → Prop} :
    Meets (remove id) v
      (fun _ v' => v.Leads floor c Stock.nowhere v' { c with handles := c.handles.remove id }) f := by
  unfold remove
  have leads := h.mark o (f := fun n => { n with removed := true })
    (fun _ => ⟨rfl, rfl, ⟨rfl, rfl⟩, rfl⟩)
    (h.tabled.handles.remove rfl rfl)
  refine meets_modifyNode (meets_getNode ?_)
  refine (meets_note (v := v.withNode id _) h.space _ (f := fun _ _ => False)).mono
    (fun _ v₁ h₁ => ?_) fun _ _ no => no.elim
  rw [h₁.2]
  exact leads.rests h₁.1

/-- Writes can be denied as often as the node is open. -/
theorem ends_denyWrites (h : v.Inv floor c trees) (o : v.Opened c id s) :
    Ends (denyWrites id) v
      (fun _ v' => v.Leads floor c Stock.nowhere v' c ∧
        (v'.node id).denials = (v.node id).denials + 1 ∧ (v.node id).denials < (v.node id).opens)
      (fun e v' => v.Leads floor c Stock.nowhere v' c ∧ e = .violation .deniedBeyondOpeners ∧
        (v.node id).opens ≤ (v.node id).denials) := by
  have leads := h.mark o (f := fun n => { n with denials := n.denials + 1 })
    (fun _ => ⟨rfl, rfl, ⟨rfl, rfl⟩, rfl⟩) (h.tabled.handles.same rfl rfl)
  have here := (node_withNode o.inside (fun n => { n with denials := n.denials + 1 }) id).trans
    (if_pos rfl)
  unfold denyWrites
  refine ends_modifyNode (ends_getNode ?_)
  rw [here]
  split
  · next beyond => exact ends_throw ⟨leads, rfl, Nat.le_of_lt_succ beyond⟩
  · next within => exact ends_pure ⟨leads, by rw [here], Nat.not_lt.1 within⟩

/-- Writes can be allowed as often as they were denied. -/
theorem ends_allowWrites (h : v.Inv floor c trees) (o : v.Opened c id s) :
    Ends (allowWrites id) v
      (fun _ v' => v.Leads floor c Stock.nowhere v' c ∧
        (v'.node id).denials + 1 = (v.node id).denials)
      (fun e v' => v.Leads floor c Stock.nowhere v' c ∧
        (e = .violation .deniedBeyondOpeners ∧ (v.node id).opens < (v.node id).denials ∨
          e = .violation .allowedWithoutDenial ∧ (v.node id).denials = 0)) := by
  have leads := h.mark o (f := fun n => { n with denials := n.denials - 1 })
    (fun _ => ⟨rfl, rfl, ⟨rfl, rfl⟩, rfl⟩) (h.tabled.handles.same rfl rfl)
  have here := (node_withNode o.inside (fun n => { n with denials := n.denials - 1 }) id).trans
    (if_pos rfl)
  have none := h.leads_rests h.space.rests
  unfold allowWrites
  refine ends_getNode ?_
  by_cases undenied : (v.node id).denials = 0
  · rw [if_pos undenied]
    exact ends_violate_bind ⟨none, .inr ⟨rfl, undenied⟩⟩
  · rw [if_neg undenied]
    by_cases beyond : (v.node id).denials > (v.node id).opens
    · rw [if_pos beyond]
      exact ends_violate_bind ⟨none, .inl ⟨rfl, beyond⟩⟩
    · rw [if_neg beyond]
      refine ends_modify ⟨leads, ?_⟩
      exact (congrArg (fun n => n.denials + 1) here).trans
        (Nat.sub_add_cancel (Nat.pos_of_ne_zero undenied))

/-- The sectors of a live inode are listed. -/
theorem meets_mappedSectors (h : v.Inv floor c trees) (o : v.Opened c id s) :
    Meets (mappedSectors id) v
      (fun m v' => v.Leads floor c Stock.nowhere v' c ∧ m = v.mappedOf s)
      (fun e v' => v.Breaks floor c Stock.nowhere e v' c) := by
  have m := h.mapping o
  have reading := Space.meets_mapped m.space m.tree
  rw [m.record] at reading
  unfold mappedSectors
  refine meets_getNode ((h.meets_rests reading).mono ?_ fun _ _ breaks => breaks)
  rintro _ v' ⟨leads, rfl⟩
  rw [(h.files s o.live).mappedOf_eq]
  exact ⟨leads, rfl⟩

end Volume

end SectorVolume
