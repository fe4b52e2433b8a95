import SectorVolume.Proofs.Cache.Intact
import SectorVolume.Proofs.Mapping.Hidden
import SectorVolume.Proofs.Volume.Steps

/-!
# What requests cannot tell apart and leave alone

All requests are put together from actions on the space, changes of the nodes, and changes of the
table, into which entries are put and out of which they are taken. What none of these can tell
apart no request can. And an invariant that survives what happens to the space as long as the cache
stays intact, to the nodes, their denials apart, and to the table, survives every request. Nothing
is assumed of the client here; a request may be about sectors that are no inodes and nodes that were
closed.
-/

namespace SectorVolume

open SectorVolume.Action

variable {α : Type} {c : Comparison Storage}

/-- The cache is well-formed and true to the disk, and nothing is pinned. -/
def Space.Intact (sp : Space) : Prop := sp.storage.Intact

/-! ## Pieces of files -/

/-- Reading a file reads sectors. -/
theorem Comparison.Readable.readPieces (h : c.Readable) (r : Record) (bytes : Bytes)
    (ps : List Piece) : Blind c (Volume.readPieces r bytes ps) := by
  have piece : ∀ p, Blind c (Volume.readPiece r p) := by
    intro p
    unfold Volume.readPiece
    refine (h.lookup r p.start).bind fun found => ?_
    split
    · exact h.read _ _ _
    · exact blind_pure _
  induction ps generalizing bytes with
  | nil => exact blind_pure _
  | cons p rest ih => exact (piece p).bind fun _ => ih _

namespace Volume

theorem blind_writePieces (h : c.Hidden) (s : SectorId) (data : Bytes) (offset written : Nat)
    (ps : List Piece) : Blind c.mapping (writePieces s data offset written ps) := by
  induction ps generalizing written with
  | nil => exact blind_pure _
  | cons p rest ih =>
    unfold writePieces
    refine (Growth.blind_ensure h p.start).attempt.bind fun sector => ?_
    split
    · exact (Mapping.blind_onStorage (h.blind_note _)).bind fun _ => blind_pure _
    · exact blind_pure _
    · exact blind_pure _
    · refine (Mapping.blind_onStorage (h.write _ _ _)).attempt.bind fun stored => ?_
      split
      · exact blind_pure _
      · exact ih _

theorem blind_zeroPieces (h : c.Hidden) (r : Record) (ps : List Piece) :
    Blind c (zeroPieces r ps) := by
  induction ps with
  | nil => exact blind_pure _
  | cons p rest ih =>
    unfold zeroPieces
    extract_lets onward
    have after : Blind c (onward ⟨⟩) := ih
    refine (h.lookup r p.start).bind fun found => ?_
    split
    · exact (h.write _ _ _).bind fun _ => after
    · exact after

theorem blind_createRecord (h : c.Hidden) (s : SectorId) (length : Nat) :
    Blind c.mapping (createRecord s length) := by
  unfold createRecord
  refine (Mapping.blind_populate h length).bind fun _ => ?_
  refine Mapping.blind_get_bind (fun _ _ _ => rfl) fun m => ?_
  refine (Mapping.blind_onStorage (h.replaceSector _ _)).attempt.bind fun saved => ?_
  split
  · exact blind_pure _
  · exact (Mapping.blind_release h).bind fun _ => blind_fail _

/-! ## Requests -/

/-- What requests are put together from cannot tell volumes apart that `C` does not: actions that
cannot tell apart what `c` does not, new entries of the table for sectors in `welcome` and the loss
of any entry, new nodes, and changes of a node other than of its denials, which may change for
`loose` nodes only. -/
structure Hidden (loose : NodeId → Prop) (welcome : SectorId → Prop) (c : Comparison Storage)
    (C : Comparison Volume) : Prop where
  storage : c.Hidden
  rest : ∀ v w, C.alike v w → v.superblock = w.superblock ∧ v.nodes = w.nodes ∧ v.table = w.table
  onSpace : ∀ {α : Type} {same : α → α → Prop} {x y : Action Space α},
    Couples c.space same x y → Couples C same (onSpace x) (onSpace y)
  withRecord : ∀ {α : Type} (r : Record) {x : Action Mapping α},
    Blind c.mapping x → Blind C (withRecord r x)
  onRecord : ∀ {α : Type} (k : NodeId) {x : Action Mapping α},
    Blind c.mapping x → Blind C (onRecord k x)
  modifyNode : ∀ (k : NodeId) (f : Node → Node), (loose k ∨ ∀ n, (f n).denials = n.denials) →
    Blind C (modifyNode k f)
  push : ∀ (n : Node) (s : SectorId) (k : NodeId), n.denials = 0 → welcome s →
    Blind C (modify fun ⟨space, superblock, nodes, table⟩ =>
      ⟨space, superblock, nodes.push n, table.insert s k⟩ : Action Volume PUnit)
  erase : ∀ s : SectorId, Blind C (Volume.modifyTable (·.erase s))

namespace Hidden

variable {loose : NodeId → Prop} {welcome : SectorId → Prop} {C : Comparison Volume} {k : NodeId}

theorem get_bind (h : Hidden loose welcome c C) {rest : Volume → Action Volume α}
    (e : ∀ sp sp' superblock nodes table,
      rest ⟨sp, superblock, nodes, table⟩ = rest ⟨sp', superblock, nodes, table⟩)
    (hr : ∀ v, Blind C (rest v)) : Blind C (get >>= rest) := by
  refine blind_get_bind (fun v w alike => ?_) hr
  obtain ⟨sp, superblock, nodes, table⟩ := v
  obtain ⟨sp', superblock', nodes', table'⟩ := w
  obtain ⟨rfl, rfl, rfl⟩ : superblock = superblock' ∧ nodes = nodes' ∧ table = table' :=
    h.rest _ _ alike
  exact e ..

theorem getNode_bind (h : Hidden loose welcome c C) {rest : Node → Action Volume α}
    (hr : ∀ n, Blind C (rest n)) : Blind C (getNode k >>= rest) := by
  have e : (getNode k >>= rest) = get >>= fun v : Volume => rest (v.node k) := rfl
  rw [e]
  exact h.get_bind (fun _ _ _ _ _ => rfl) fun v => hr _

theorem onStorage (h : Hidden loose welcome c C) {x : Action Storage α} (hx : Blind c x) :
    Blind C (Volume.onSpace (Space.onStorage x)) := h.onSpace (Space.blind_onStorage hx)

theorem note (h : Hidden loose welcome c C) (e : Event) : Blind C (note e) :=
  h.onStorage (h.storage.blind_note e)

/-! ## Inodes -/

theorem persist (h : Hidden loose welcome c C) (k : NodeId) : Blind C (persist k) := by
  unfold Volume.persist
  refine Blind.bind (h.modifyNode k _ (.inr fun _ => rfl)) fun _ => h.getNode_bind fun n => ?_
  exact h.onStorage (h.storage.replaceSector _ _)

theorem readInode (h : Hidden loose welcome c C) {s : SectorId} (hs : welcome s) :
    Blind C (readInode s) := by
  unfold Volume.readInode
  refine (h.onStorage (h.storage.readView _ s 0)).bind fun r => ?_
  extract_lets make
  have made : Blind C (make ⟨⟩) := by
    refine h.get_bind (fun _ _ _ _ _ => rfl) fun v => Blind.bind (h.push _ s _ rfl hs) fun _ => ?_
    exact (h.note _).bind fun _ => blind_pure _
  split
  · exact (h.note _).bind fun _ => (blind_fail _).bind fun _ => made
  · exact made

theorem openInode (h : Hidden loose welcome c C) {s : SectorId} (hs : welcome s) :
    Blind C (openInode s) := by
  unfold Volume.openInode
  refine h.get_bind (fun _ _ _ _ _ => rfl) fun v => ?_
  extract_lets look
  have looking : Blind C (look ⟨⟩) := by
    refine h.get_bind (fun _ _ _ _ _ => rfl) fun v => ?_
    split
    · next id _ =>
      have shared : Blind C (do
          Volume.modifyNode id fun n => { n with opens := n.opens + 1 }
          return id) := Blind.bind (h.modifyNode id _ (.inr fun _ => rfl)) fun _ => blind_pure id
      refine h.getNode_bind fun n => blind_ite ?_ shared
      exact (h.note _).bind fun _ => (blind_fail _).bind fun _ => shared
    · exact h.readInode hs
  split
  · exact blind_when (blind_fail _) looking
  · exact looking

theorem createInode (h : Hidden loose welcome c C) (s : SectorId) (length : Nat)
    (isDirectory : Bool) : Blind C (createInode s length isDirectory) := by
  have created : Blind C (do
      Volume.withRecord (Record.make (UInt32.ofNat length) isDirectory) (createRecord s length)
      Volume.note (.inodeCreated s length isDirectory)) :=
    (h.withRecord _ (blind_createRecord h.storage s length)).bind fun _ => h.note _
  unfold Volume.createInode
  exact blind_ite ((h.note _).bind fun _ => (blind_fail _).bind fun _ => created) created

theorem reopen (h : Hidden loose welcome c C) (k : NodeId) : Blind C (reopen k) := by
  unfold Volume.reopen
  refine h.getNode_bind fun n => blind_when (blind_violate _) ?_
  exact h.modifyNode k _ (.inr fun _ => rfl)

theorem remove (h : Hidden loose welcome c C) (k : NodeId) : Blind C (remove k) := by
  unfold Volume.remove
  refine Blind.bind (h.modifyNode k _ (.inr fun _ => rfl)) fun _ => ?_
  exact h.getNode_bind fun _ => h.note _

theorem denyWrites (h : Hidden loose welcome c C) (hk : loose k) : Blind C (denyWrites k) := by
  unfold Volume.denyWrites
  refine (h.modifyNode k _ (.inl hk)).bind fun _ => h.getNode_bind fun _ => ?_
  exact blind_ite (blind_violate _) (blind_pure _)

theorem allowWrites (h : Hidden loose welcome c C) (hk : loose k) : Blind C (allowWrites k) := by
  unfold Volume.allowWrites
  refine h.getNode_bind fun n => blind_when (blind_violate _) ?_
  exact blind_when (blind_violate _) (h.modifyNode k _ (.inl hk))

theorem releaseNode (h : Hidden loose welcome c C) (k : NodeId) : Blind C (releaseNode k) := by
  unfold Volume.releaseNode
  refine (h.onRecord k (Mapping.blind_release h.storage)).bind fun _ => h.getNode_bind fun _ => ?_
  refine (h.onStorage (h.storage.writeZeros _)).bind fun _ => ?_
  exact Blind.bind (h.onSpace (Space.blind_release h.storage _ 1)) fun _ => h.note _

theorem closeInode (h : Hidden loose welcome c C) (k : NodeId) : Blind C (closeInode k) := by
  unfold Volume.closeInode
  refine (h.persist k).bind fun _ => h.getNode_bind fun n => blind_when (blind_violate _) ?_
  refine Blind.bind (h.modifyNode k _ (.inr fun _ => rfl)) fun _ => ?_
  refine blind_ite (blind_pure _) (blind_ite ?_ ?_)
  · exact (h.releaseNode k).bind fun _ => h.erase _
  · refine (h.erase _).bind fun _ => ?_
    exact (h.onSpace (Space.couples_onStorage (h.storage.flushSector _))).bind_any fun _ _ => h.note _

/-! ## Files -/

theorem readAt (h : Hidden loose welcome c C) (k : NodeId) (offset len : Nat) :
    Blind C (readAt k offset len) := by
  unfold Volume.readAt
  exact h.getNode_bind fun _ => h.onStorage (h.storage.readPieces _ _ _)

theorem settleWrite (h : Hidden loose welcome c C) (k : NodeId) (before : Node)
    (offset written : Nat) : Blind C (settleWrite k before offset written) := by
  unfold Volume.settleWrite
  refine blind_when (h.modifyNode k _ (.inr fun _ => rfl)) (h.getNode_bind fun n => ?_)
  exact blind_ite (h.persist k) (blind_pure _)

theorem writeAt (h : Hidden loose welcome c C) (k : NodeId) (data : Bytes) (offset : Nat) :
    Blind C (writeAt k data offset) := by
  unfold Volume.writeAt
  refine h.getNode_bind fun before => blind_ite ((h.note _).bind fun _ => blind_pure _) ?_
  refine (h.onRecord k (blind_writePieces h.storage _ _ _ _ _)).bind fun result => ?_
  refine blind_when (h.note _) ((h.settleWrite k before _ result.1).bind fun _ => ?_)
  exact (blind_resume result.2).bind fun _ => blind_pure _

theorem setLength (h : Hidden loose welcome c C) (k : NodeId) (length : Nat) :
    Blind C (setLength k length) := by
  have zeros := fun r ps => h.onStorage (blind_zeroPieces h.storage r ps)
  unfold Volume.setLength
  refine h.getNode_bind fun n => (h.onStorage (h.storage.mapped n.record)).bind fun mapped => ?_
  refine blind_when (blind_fail _) (blind_when (zeros _ _) ?_)
  exact Blind.bind (h.modifyNode k _ (.inr fun _ => rfl)) fun _ => h.persist k

theorem mappedSectors (h : Hidden loose welcome c C) (k : NodeId) : Blind C (mappedSectors k) :=
  h.getNode_bind fun n => h.onStorage (h.storage.mapped n.record)

theorem flush (h : Hidden loose welcome c C) : Couples C (fun _ _ => True) flush flush :=
  h.onSpace (Space.couples_onStorage h.storage.flushAll)

theorem close (h : Hidden loose welcome c C) : Blind C close := by
  unfold Volume.close
  refine h.get_bind (fun _ _ _ _ _ => rfl) fun v => blind_when (h.note _) ?_
  exact h.flush.bind_any fun _ _ => h.onSpace (Space.couples_onStorage (h.storage.note _ _))

end Hidden

end Volume

/-! ## Answers -/

namespace Request

/-- Whether two answers to a request are the same. How many sectors have to be written back depends
on the cache, so that number may be another one. -/
def Same : (r : Request) → r.Answer → r.Answer → Prop
  | flush, _, _ => True
  | _, a, b => a = b

end Request

namespace Volume

variable {loose : NodeId → Prop} {welcome : SectorId → Prop} {C : Comparison Volume}

/-- A request does not tell volumes apart, unless it denies or allows writes to a node whose denials
must not change, or opens a sector that is to be kept out of the table. -/
theorem Hidden.perform (h : Hidden loose welcome c C) (r : Request)
    (hr : ∀ k, r = .denyWrites k ∨ r = .allowWrites k → loose k)
    (hw : ∀ s, r = .openInode s → welcome s) : Couples C r.Same r.perform r.perform := by
  cases r with
  | allocateInode => exact Blind.bind (h.onSpace (Space.blind_allocate h.storage 1)) fun _ => blind_pure _
  | createInode s length isDirectory => exact h.createInode s length isDirectory
  | openInode s => exact h.openInode (hw s rfl)
  | reopen k => exact h.reopen k
  | readAt k offset len => exact h.readAt k offset len
  | writeAt k bytes offset => exact h.writeAt k bytes offset
  | setLength k length => exact h.setLength k length
  | remove k => exact h.remove k
  | denyWrites k => exact h.denyWrites (hr k (.inl rfl))
  | allowWrites k => exact h.allowWrites (hr k (.inr rfl))
  | closeInode k => exact h.closeInode k
  | mappedSectors k => exact h.mappedSectors k
  | flush => exact h.flush
  | close => exact h.close
  | freeCount => exact h.onSpace h.storage.freeCount

end Volume

/-! ## Volumes on storage that is alike -/

/-- Compares volumes with equal superblocks, nodes and tables by their storage. -/
def Comparison.volume (c : Comparison Storage) : Comparison Volume :=
  c.space.onPart Volume.space fun v => (v.superblock, v.nodes, v.table)

namespace Volume

theorem onSpace_eq_within (x : Action Space α) :
    onSpace x = within Volume.space (fun sp v => { v with space := sp }) x := by
  funext ⟨space, superblock, nodes, table⟩
  unfold onSpace within
  simp only
  cases x space <;> rfl

theorem withRecord_eq_within (r : Record) (x : Action Mapping α) :
    withRecord r x = within (fun v => ⟨v.space, r⟩) (fun m v => { v with space := m.space }) x := by
  funext ⟨space, superblock, nodes, table⟩
  unfold withRecord within
  simp only
  cases x ⟨space, r⟩ <;> rfl

theorem onRecord_eq_within (k : NodeId) (x : Action Mapping α) :
    onRecord k x = within (fun v => ⟨v.space, (v.node k).record⟩) (fun m v => { v with
      space := m.space, nodes := v.nodes.modify k fun n => { n with record := m.record } }) x := by
  funext ⟨space, superblock, nodes, table⟩
  unfold onRecord within node
  simp only
  cases x ⟨space, (nodes.getD k default).record⟩ <;> rfl

theorem lens_onSpace : Comparison.Lens c.space c.volume Volume.space
    fun sp v => { v with space := sp } := Comparison.lens_onPart (fun _ _ => rfl) fun _ _ => rfl

theorem lens_withRecord (r : Record) : Comparison.Lens c.mapping c.volume
    (fun v => ⟨v.space, r⟩) (fun m v => { v with space := m.space }) where
  fit _ h := h
  fit_put _ _ _ h := h
  alike _ _ h := ⟨h.1, rfl⟩
  alike_put _ _ _ _ h h' := ⟨h'.1, h.2⟩
  count _ := rfl
  count_put _ _ := rfl

theorem lens_onRecord (k : NodeId) : Comparison.Lens c.mapping c.volume
    (fun v => ⟨v.space, (v.node k).record⟩) (fun m v => { v with
      space := m.space, nodes := v.nodes.modify k fun n => { n with record := m.record } }) where
  fit _ h := h
  fit_put _ _ _ h := h
  alike _ _ h := ⟨h.1, congrArg (fun rest => (rest.2.1.getD k default).record) h.2⟩
  alike_put p q s t h h' := by
    obtain ⟨_, superblock, nodes, table⟩ := s
    obtain ⟨_, _, _, _⟩ := t
    obtain ⟨-, rest⟩ := h
    cases rest
    obtain ⟨alike, record⟩ := h'
    exact ⟨alike, by rw [record]⟩
  count _ := rfl
  count_put _ _ := rfl

/-- Whatever is hidden by the storage is hidden by volumes. -/
theorem hidden_volume (h : c.Hidden) : Hidden (fun _ => True) (fun _ => True) c c.volume where
  storage := h
  rest v w alike := by
    obtain ⟨superblock, rest⟩ := Prod.mk.inj alike.2
    exact ⟨superblock, Prod.mk.inj rest⟩
  onSpace hx := by
    rw [onSpace_eq_within, onSpace_eq_within]
    exact lens_onSpace.couples hx
  withRecord r _ hx := withRecord_eq_within r _ ▸ (lens_withRecord r).couples hx
  onRecord k _ hx := onRecord_eq_within k _ ▸ (lens_onRecord k).couples hx
  modifyNode k f _ := blind_modify (fun _ fit => fit)
    (fun _ _ alike => ⟨alike.1, congrArg (fun rest => (rest.1, rest.2.1.modify k f, rest.2.2)) alike.2⟩)
    fun _ => rfl
  push n s k _ _ := blind_modify (fun _ fit => fit) (fun _ _ alike => ⟨alike.1,
    congrArg (fun rest => (rest.1, rest.2.1.push n, rest.2.2.insert s k)) alike.2⟩) fun _ => rfl
  erase s := blind_modify (fun _ fit => fit)
    (fun _ _ alike => ⟨alike.1, congrArg (fun rest => (rest.1, rest.2.1, rest.2.2.erase s)) alike.2⟩)
    fun _ => rfl

/-- No request tells volumes on alike storage apart. -/
theorem couples_perform (h : c.Hidden) (r : Request) :
    Couples c.volume r.Same r.perform r.perform :=
  (hidden_volume h).perform r (fun _ _ => trivial) fun _ _ => trivial

/-! ## Invariants -/

/-- The invariant `I` survives a change of the space that leaves the cache intact, new entries of
the table for sectors in `welcome` and the loss of any entry, new nodes, and changes of a node other
than of its denials, which may change for `loose` nodes only. -/
structure Framed (loose : NodeId → Prop) (welcome : SectorId → Prop) (I : Volume → Prop) : Prop where
  space : ∀ (v : Volume) (sp : Space), I v → (v.space.Intact → sp.Intact) → I { v with space := sp }
  node : ∀ (v : Volume) (k : NodeId) (f : Node → Node), I v →
    (loose k ∨ ∀ n, (f n).denials = n.denials) → I (v.withNode k f)
  push : ∀ (v : Volume) (n : Node), I v → n.denials = 0 → I { v with nodes := v.nodes.push n }
  insert : ∀ (v : Volume) (s : SectorId) (k : NodeId), I v → welcome s →
    I { v with table := v.table.insert s k }
  erase : ∀ (v : Volume) (s : SectorId), I v → I { v with table := v.table.erase s }

namespace Framed

variable {I : Volume → Prop}

theorem onSpace (h : Framed loose welcome I) {x : Action Space α} (hx : Preserves Space.Intact x) :
    Preserves I (onSpace x) := by
  rintro ⟨space, superblock, nodes, table⟩ hv
  have run := hx space
  unfold Ends at run ⊢
  unfold Volume.onSpace
  simp only
  cases e : x space with
  | ok | error =>
    rw [e] at run
    exact h.space _ _ hv run

theorem withRecord (h : Framed loose welcome I) {r : Record} {x : Action Mapping α}
    (hx : Preserves (fun m => m.space.Intact) x) : Preserves I (withRecord r x) := by
  rintro ⟨space, superblock, nodes, table⟩ hv
  have run := hx ⟨space, r⟩
  unfold Ends at run ⊢
  unfold Volume.withRecord
  simp only
  cases e : x ⟨space, r⟩ with
  | ok | error =>
    rw [e] at run
    exact h.space _ _ hv run

theorem onRecord (h : Framed loose welcome I) {k : NodeId} {x : Action Mapping α}
    (hx : Preserves (fun m => m.space.Intact) x) : Preserves I (onRecord k x) := by
  rintro ⟨space, superblock, nodes, table⟩ hv
  have run := hx ⟨space, (nodes.getD k default).record⟩
  unfold Ends at run ⊢
  unfold Volume.onRecord
  simp only
  cases e : x ⟨space, (nodes.getD k default).record⟩ with
  | ok | error =>
    rw [e] at run
    exact h.node _ k _ (h.space _ _ hv run) (.inr fun _ => rfl)

/-- Keeping the invariant is a matter of single runs, which no other one is compared with. -/
theorem hidden (h : Framed loose welcome I) :
    Hidden loose welcome Storage.sameContent (.single I) where
  storage := Storage.hidden_sameContent
  rest _ _ no := no.elim
  onSpace hx := couples_single (h.onSpace hx.left.preserves) (h.onSpace hx.right.preserves)
  withRecord _ _ hx := blind_single (h.withRecord hx.left.preserves)
  onRecord _ _ hx := blind_single (h.onRecord hx.left.preserves)
  modifyNode k f hf := blind_single (preserves_modify fun v hv => h.node v k f hv hf)
  push n s k hn hs := blind_single (preserves_modify fun v hv => h.insert _ s k (h.push v n hv hn) hs)
  erase s := blind_single (preserves_modify fun v hv => h.erase v s hv)

/-- Every request keeps the invariant, unless it denies or allows writes to a node whose denials the
invariant is about, or opens a sector that the invariant keeps out of the table. -/
theorem perform (h : Framed loose welcome I) (r : Request)
    (hr : ∀ k, r = .denyWrites k ∨ r = .allowWrites k → loose k)
    (hw : ∀ s, r = .openInode s → welcome s) : Preserves I r.perform :=
  (h.hidden.perform r hr hw).left.preserves

end Framed

end Volume

end SectorVolume
