import SectorVolume.Proofs.Mapping.Blocks

/-!
# Records with their sectors

A tree is a record together with what it maps. It is sound when the content spells it out, when no
sector occurs twice in it and all of them are held. A growth takes sectors, hangs them in behind the
end and writes to index blocks only; new data sectors hold zeros. It is thrifty when it takes no
more than the data sectors that are asked for and the index blocks that these need.
-/

namespace SectorVolume

/-- The sectors, data and index, that a file needs beside its own to have `goal` data sectors. -/
def MappedSectors.lacking (mapped : MappedSectors) (goal : Nat) : Nat :=
  if goal ≤ mapped.data.length then 0
  else totalSectors goal - mapped.data.length - mapped.index.length

/-- A file lacks no more than a whole file of the length. -/
theorem MappedSectors.lacking_le (mapped : MappedSectors) (goal : Nat) :
    mapped.lacking goal ≤ totalSectors goal := by
  unfold MappedSectors.lacking
  split <;> omega

/-- A record with the data sectors that it maps and the index blocks below its top block. -/
structure Tree where
  record : Record
  /-- The data sectors, in the order of the file. -/
  data : List SectorId
  /-- The index blocks below the top block. -/
  children : List SectorId

namespace Tree

variable {t t' t'' : Tree} {a b c : Stock} {X : SectorId → Prop} {new ids : List SectorId}

/-- The index blocks. -/
def blocks (t : Tree) : List SectorId := t.record.blocks t.children

/-- All sectors below the record. -/
def sectors (t : Tree) : List SectorId := t.data ++ t.blocks

theorem mem_sectors_data {id : SectorId} (h : id ∈ t.data) : id ∈ t.sectors :=
  List.mem_append_left _ h

theorem mem_sectors_blocks {id : SectorId} (h : id ∈ t.blocks) : id ∈ t.sectors :=
  List.mem_append_right _ h

theorem perm_append_new (data new blocks : List SectorId) :
    ((data ++ new) ++ blocks).Perm ((data ++ blocks) ++ new) := by
  rw [List.append_assoc, List.append_assoc]
  exact List.perm_append_comm.append_left data

/-- A record without sectors has an empty tree. -/
theorem sectors_empty {r : Record} (bare : r.withoutSectors = r) :
    (⟨r, [], []⟩ : Tree).sectors = [] := by
  rw [← bare]
  rfl

theorem length_blocks (r : Record) (children : List SectorId) :
    (r.blocks children).length = (if r.indirect = 0 then 0 else 1) +
      if r.doubleIndirect = 0 then 0 else 1 + children.length := by
  unfold Record.blocks
  split <;> split <;> simp [Nat.add_comm]

/-! ## Thrift -/

variable {n : Nat}

/-- From `t` to `t'` no more was added than what `n` data sectors need. -/
structure Thrifty (n : Nat) (t t' : Tree) : Prop where
  data : t'.data.length ≤ max t.data.length n
  blocks : t'.blocks.length ≤ max t.blocks.length (indexSectors n)

theorem Thrifty.refl (n : Nat) (t : Tree) : Thrifty n t t := ⟨Nat.le_max_left .., Nat.le_max_left ..⟩

theorem Thrifty.trans (h : Thrifty n t t') (h' : Thrifty n t' t'') : Thrifty n t t'' := by
  obtain ⟨data, blocks⟩ := h
  obtain ⟨data', blocks'⟩ := h'
  exact ⟨by omega, by omega⟩

theorem Thrifty.mono {n' : Nat} (h : Thrifty n t t') (le : n ≤ n') : Thrifty n' t t' := by
  obtain ⟨data, blocks⟩ := h
  have more := indexSectors_mono le
  exact ⟨by omega, by omega⟩

/-- Only data sectors were added. -/
theorem thrifty_of_blocks (blocks : t'.blocks = t.blocks)
    (data : t'.data.length ≤ max t.data.length n) : Thrifty n t t' := ⟨data, blocks ▸ Nat.le_max_left ..⟩

theorem thrifty_child (t : Tree) (some : 140 + 128 * t.children.length < n) (s : SectorId) :
    Thrifty n t ⟨t.record, t.data, t.children ++ [s]⟩ := by
  refine ⟨Nat.le_max_left .., Nat.le_trans ?_ (Nat.le_max_right ..)⟩
  unfold blocks
  rw [length_blocks, List.length_append, List.length_singleton, indexSectors_eq,
    if_pos (show 12 < n by omega), if_pos (show 140 < n by omega)]
  split <;> split <;> omega

/-! ## Soundness and growth -/

variable [Promise]

/-- The content spells the tree out, and its sectors are held and distinct. -/
structure Sound (t : Tree) (a : Stock) : Prop where
  maps : t.record.Maps a.content t.data t.children
  nodup : t.sectors.Nodup
  held : ∀ id ∈ t.sectors, a.Held id

/-- The tree got longer at its end, by sectors that were taken. -/
structure Grows (t : Tree) (a : Stock) (t' : Tree) (b : Stock) : Prop where
  sound : t'.Sound b
  taken : ∃ ids, Stock.Took (· ∈ t.blocks) ids a b ∧ t'.sectors.Perm (t.sectors ++ ids)
  data : t.data <+: t'.data
  zero : ∀ id ∈ t'.data, id ∉ t.data → b.content id = Sector.zero
  rest : t'.record.withoutSectors = t.record.withoutSectors

theorem Sound.nodup_blocks (h : t.Sound a) : t.blocks.Nodup := h.nodup.of_append_right

theorem Sound.not_mem_blocks (h : t.Sound a) {id : SectorId} (hid : id ∈ t.data) :
    id ∉ t.blocks := fun hid' => List.disjoint_of_nodup_append h.nodup hid hid'

/-- The disk has the index blocks. -/
theorem Sound.inside (h : t.Sound a) : ∀ s ∈ t.blocks, s.toNat < Promise.sectors :=
  fun s hs => (h.held s (mem_sectors_blocks hs)).1.lt

theorem Sound.data_length_le (h : t.Sound a) : t.data.length ≤ 16524 := h.maps.length_le

/-- A tree is not touched by what happens outside its index blocks. -/
theorem Sound.frame (h : t.Sound a) (took : Stock.Took X ids a b) (hX : ∀ s ∈ t.blocks, ¬ X s) :
    t.Sound b := by
  refine ⟨h.maps.congr fun s hs => ?_, h.nodup, fun id hid => took.held (h.held id hid)⟩
  exact took.content (h.held s (mem_sectors_blocks hs)) (hX s hs)

theorem Sound.stays (h : t.Sound a) (took : Stock.Took Stock.nowhere [] a b) :
    t.Grows a t b := by
  refine ⟨h.frame took fun _ _ no => no, ⟨[], took.mono fun _ _ no => no.elim, ?_⟩,
    List.prefix_refl _, fun id hid notin => absurd hid notin, rfl⟩
  rw [List.append_nil]

theorem Sound.refl (h : t.Sound a) : t.Grows a t a := h.stays (.refl a)

/-- What makes a change of a tree a growth. -/
theorem Sound.grows (h : t.Sound a) (proper : ∀ id, a.free id → a.Usable id)
    (took : Stock.Took X ids a b) (hX : ∀ s, X s → s ∈ t.blocks)
    (perm : t'.sectors.Perm (t.sectors ++ ids)) (data : t'.data = t.data ++ new)
    (zero : ∀ id ∈ new, b.content id = Sector.zero)
    (maps : t'.record.Maps b.content t'.data t'.children)
    (rest : t'.record.withoutSectors = t.record.withoutSectors) : t.Grows a t' b := by
  have disjoint : ∀ x ∈ t.sectors, ∀ y ∈ ids, x ≠ y := by
    rintro x hx _ hy rfl
    exact (h.held x hx).2 (took.free x hy)
  refine ⟨⟨maps, ?_, fun id hid => ?_⟩, ⟨ids, took.mono fun s _ hs => hX s hs, perm⟩, ?_,
    fun id hid notin => ?_, rest⟩
  · exact perm.nodup_iff.2 (List.nodup_append.2 ⟨h.nodup, took.nodup, disjoint⟩)
  · rcases List.mem_append.1 (perm.mem_iff.1 hid) with hid | hid
    · exact took.held (h.held id hid)
    · exact took.held_of_mem proper hid
  · rw [data]
    exact List.prefix_append ..
  · rw [data] at hid
    exact zero id ((List.mem_append.1 hid).resolve_left notin)

theorem Grows.trans (h : t.Grows a t' b) (h' : t'.Grows b t'' c) : t.Grows a t'' c := by
  obtain ⟨ids, took, perm⟩ := h.taken
  obtain ⟨ids', took', perm'⟩ := h'.taken
  refine ⟨h'.sound, ⟨ids ++ ids', took.trans took' fun s kept hs => ?_, ?_⟩, h.data.trans h'.data,
    fun id hid notin => ?_, h'.rest.trans h.rest⟩
  · -- an index block that is not new was one before
    rcases List.mem_append.1 (perm.mem_iff.1 (mem_sectors_blocks hs)) with hs' | hs'
    · refine (List.mem_append.1 hs').resolve_left fun hd => ?_
      exact h.sound.not_mem_blocks (h.data.subset hd) hs
    · exact absurd kept (took.not_kept took' hs')
  · rw [← List.append_assoc]
    exact perm'.trans (perm.append_right ids')
  · by_cases e : id ∈ t'.data
    · rw [took'.content (h.sound.held id (mem_sectors_data e)) (h.sound.not_mem_blocks e)]
      exact h.zero id e notin
    · exact h'.zero id hid e

/-- What is free no more is part of the tree, as long as no transfer fails. -/
theorem Grows.unleaked (h : t.Grows a t' b) (clean : b.failures = a.failures) (id : SectorId)
    (free : a.free id) : id ∈ t'.sectors ∨ b.free id := by
  obtain ⟨ids, took, perm⟩ := h.taken
  by_cases hid : id ∈ ids
  · exact .inl (perm.mem_iff.2 (List.mem_append_right _ hid))
  · exact .inr (took.unleaked clean id free hid)

theorem Grows.follows (h : t.Grows a t' b) : Stock.Follows a b :=
  let ⟨_, took, _⟩ := h.taken
  took.toFollows

theorem Grows.subset (h : t.Grows a t' b) : t.sectors ⊆ t'.sectors :=
  let ⟨_, _, perm⟩ := h.taken
  fun _ hid => perm.mem_iff.2 (List.mem_append_left _ hid)

/-! ## Steps of a growth -/

section Steps

variable {s : SectorId}

/-- Entries are added to those of the record. -/
theorem Sound.append_direct (h : t.Sound a) (proper : ∀ id, a.free id → a.Usable id)
    (e : t.record.indirect = 0) (took : Stock.Took Stock.nowhere new a b)
    (zero : ∀ id ∈ new, b.content id = Sector.zero) (le : t.data.length + new.length ≤ 12) :
    t.Grows a ⟨{ t.record with direct := listed 12 (t.data ++ new) }, t.data ++ new, t.children⟩
      b := by
  have nonzero : ∀ id ∈ new, id ≠ 0 := fun id hid => (proper id (took.free id hid)).1
  exact h.grows proper took (fun _ no => no.elim) (perm_append_new ..) rfl zero
    (h.maps.append_direct e nonzero le) rfl

/-- The first index block is begun. -/
theorem Sound.begin_first (h : t.Sound a) (proper : ∀ id, a.free id → a.Usable id)
    (e : t.record.indirect = 0) (took : Stock.Took Stock.nowhere [s] a b)
    (zero : b.content s = Sector.zero) (full : t.data.length = 12) :
    t.Grows a ⟨{ t.record with indirect := s }, t.data, t.children⟩ b := by
  have nonzero : s ≠ 0 := (proper s (took.free s (List.mem_singleton_self s))).1
  refine h.grows proper took (fun _ no => no.elim) ?_ (List.append_nil _).symm
    (fun id hid => (List.not_mem_nil hid).elim) (h.maps.begin_first e full nonzero ?_) rfl
  · obtain ⟨noTop, -⟩ := h.maps.of_noFirst e
    unfold sectors blocks Record.blocks
    simp only
    rw [if_neg nonzero, if_pos e, if_pos noTop, List.append_nil, List.append_nil, List.append_nil]
  · rw [zero, IndexBlock.sectorOf_nil]

/-- Entries are added to the first index block. -/
theorem Sound.append_first (h : t.Sound a) (proper : ∀ id, a.free id → a.Usable id)
    (e : t.record.indirect ≠ 0) (took : Stock.Took (· = t.record.indirect) new a b)
    (zero : ∀ id ∈ new, b.content id = Sector.zero) (le : t.data.length + new.length ≤ 140)
    (hL : b.content t.record.indirect =
      IndexBlock.sectorOf (Record.chunk t.data 12 ++ new)) :
    t.Grows a ⟨t.record, t.data ++ new, t.children⟩ b := by
  have nonzero : ∀ id ∈ new, id ≠ 0 := fun id hid => (proper id (took.free id hid)).1
  refine h.grows proper took (fun s hs => ?_) (perm_append_new ..) rfl zero
    (h.maps.append_first e nonzero le hL (fun s hs ne => ?_) h.nodup_blocks) rfl
  · rw [hs]
    exact Record.Maps.mem_blocks_first e
  · exact took.content (h.held s (mem_sectors_blocks hs)) ne

/-- The top block is begun. -/
theorem Sound.begin_top (h : t.Sound a) (proper : ∀ id, a.free id → a.Usable id)
    (e : t.record.indirect ≠ 0) (e' : t.record.doubleIndirect = 0)
    (took : Stock.Took Stock.nowhere [s] a b) (zero : b.content s = Sector.zero)
    (full : t.data.length = 140) :
    t.Grows a ⟨{ t.record with doubleIndirect := s }, t.data, t.children⟩ b := by
  have nonzero : s ≠ 0 := (proper s (took.free s (List.mem_singleton_self s))).1
  have first : t.record.indirect ∈ t.blocks := Record.Maps.mem_blocks_first e
  refine h.grows proper took (fun _ no => no.elim) ?_ (List.append_nil _).symm
    (fun id hid => (List.not_mem_nil hid).elim)
    (h.maps.begin_top e e' full nonzero ?_ (took.content (h.held _ (mem_sectors_blocks first))
      fun no => no)) rfl
  · unfold sectors blocks Record.blocks
    simp only
    rw [if_neg nonzero, if_neg e, if_pos e', h.maps.noTop e', List.append_nil, List.append_assoc]
  · rw [zero, IndexBlock.sectorOf_nil]

/-- Entries are added to the last index block below the top block. -/
theorem Sound.append_child (h : t.Sound a) (proper : ∀ id, a.free id → a.Usable id) {k : Nat}
    (hk : k + 1 = t.children.length) (hk' : k < t.children.length)
    (took : Stock.Took (· = t.children[k]) new a b)
    (zero : ∀ id ∈ new, b.content id = Sector.zero)
    (le : t.data.length + new.length ≤ 140 + 128 * t.children.length)
    (hL : b.content t.children[k] =
      IndexBlock.sectorOf (Record.chunk t.data (140 + 128 * k) ++ new)) :
    t.Grows a ⟨t.record, t.data ++ new, t.children⟩ b := by
  have nonzero : ∀ id ∈ new, id ≠ 0 := fun id hid => (proper id (took.free id hid)).1
  refine h.grows proper took (fun s hs => ?_) (perm_append_new ..) rfl zero
    (h.maps.append_child hk hk' nonzero le hL (fun s hs ne => ?_) h.nodup_blocks) rfl
  · rw [hs]
    exact h.maps.mem_blocks_child (List.getElem_mem hk')
  · exact took.content (h.held s (mem_sectors_blocks hs)) ne

/-- An index block is hung below the top block. -/
theorem Sound.add_child (h : t.Sound a) (proper : ∀ id, a.free id → a.Usable id)
    (e : t.record.doubleIndirect ≠ 0) (took : Stock.Took (· = t.record.doubleIndirect) [s] a b)
    (zero : b.content s = Sector.zero)
    (full : t.data.length = 140 + 128 * t.children.length) (lt : t.children.length < 128)
    (top : b.content t.record.doubleIndirect = IndexBlock.sectorOf (t.children ++ [s])) :
    t.Grows a ⟨t.record, t.data, t.children ++ [s]⟩ b := by
  have nonzero : s ≠ 0 := (proper s (took.free s (List.mem_singleton_self s))).1
  refine h.grows proper took (fun id hid => ?_) ?_ (List.append_nil _).symm
    (fun id hid => (List.not_mem_nil hid).elim)
    (h.maps.add_child e full lt nonzero ?_ top (fun id hid ne => ?_) h.nodup_blocks) rfl
  · rw [hid]
    exact Record.Maps.mem_blocks_top e
  · unfold sectors blocks Record.blocks
    simp only
    rw [if_neg e, if_neg e, List.append_assoc, List.append_assoc, List.cons_append]
  · rw [zero, IndexBlock.sectorOf_nil]
  · exact took.content (h.held id (mem_sectors_blocks hid)) ne

end Steps

/-- The sectors that a content spells out are those of the tree. -/
theorem Sound.mappedIn_eq (h : t.Sound a) : t.record.mappedIn a.content = ⟨t.data, t.blocks⟩ :=
  h.maps.mappedIn_eq

theorem sound_empty {r : Record} (bare : r.withoutSectors = r) :
    (⟨r, [], []⟩ : Tree).Sound a := by
  have none := sectors_empty bare
  refine ⟨?_, ?_, ?_⟩
  · rw [← bare]
    refine ⟨fun id hid => (List.not_mem_nil hid).elim, ?_, fun _ => Nat.zero_le _,
      fun e => absurd rfl e, fun _ => rfl, fun e => absurd rfl e, Nat.zero_le _, nofun,
      Nat.zero_le _, nofun⟩
    rw [List.take_nil, listed_nil]
    rfl
  · rw [none]
    exact List.nodup_nil
  · rw [none]
    exact fun id hid => (List.not_mem_nil hid).elim

/-! ## How many index blocks there are -/

/-- As long as the record has entries left there are no index blocks. -/
theorem Sound.blocks_of_few (h : t.Sound a) (few : t.data.length < 12) : t.blocks = [] := by
  have noFirst : t.record.indirect = 0 := by
    by_contra first
    have := (h.maps.first first).1
    omega
  have noTop : t.record.doubleIndirect = 0 := by
    by_contra top
    have := (h.maps.top top).2.1
    omega
  refine List.eq_nil_of_length_eq_zero ?_
  unfold blocks
  rw [length_blocks, if_pos noFirst, if_pos noTop]

/-- There are at least as many index blocks as the data sectors need. -/
theorem Sound.indexSectors_le (h : t.Sound a) : indexSectors t.data.length ≤ t.blocks.length := by
  have noFirst := h.maps.noFirst
  have noTop := h.maps.noTop
  have reach := h.maps.reach
  unfold blocks
  rw [length_blocks, indexSectors_eq]
  by_cases e : t.record.indirect = 0
  · have := noFirst e
    rw [if_neg (by omega), if_neg (by omega)]
    exact Nat.zero_le _
  · by_cases e' : t.record.doubleIndirect = 0
    · rw [noTop e', List.length_nil] at reach
      rw [if_neg e, if_neg (show ¬ 140 < t.data.length by omega)]
      split <;> omega
    · rw [if_neg e, if_neg e']
      split <;> split <;> omega

/-- A tree with fewer than `n` data sectors has no more index blocks than `n` data sectors need. -/
theorem Sound.blocks_le (h : t.Sound a) (less : t.data.length < n) :
    t.blocks.length ≤ indexSectors n := by
  have first := h.maps.first
  have top := h.maps.top
  have full := h.maps.full (t.children.length - 1)
  unfold blocks
  rw [length_blocks, indexSectors_eq]
  by_cases e : t.record.indirect = 0
  · obtain ⟨noTop, -⟩ := h.maps.of_noFirst e
    rw [if_pos e, if_pos noTop]
    exact Nat.zero_le _
  · have := (first e).1
    rw [if_neg e, if_pos (show 12 < n by omega)]
    by_cases e' : t.record.doubleIndirect = 0
    · rw [if_pos e']
      omega
    · have := (top e').2.1
      rw [if_neg e', if_pos (show 140 < n by omega)]
      omega

theorem Sound.thrifty_first (h : t.Sound a) (e : t.record.indirect = 0) (some : 12 < n) (s : SectorId) :
    Thrifty n t ⟨{ t.record with indirect := s }, t.data, t.children⟩ := by
  obtain ⟨noTop, -⟩ := h.maps.of_noFirst e
  refine ⟨Nat.le_max_left .., Nat.le_trans ?_ (Nat.le_max_right ..)⟩
  unfold blocks
  rw [length_blocks, if_pos noTop, indexSectors_eq, if_pos some]
  split <;> omega

theorem Sound.thrifty_top (h : t.Sound a) (e : t.record.doubleIndirect = 0) (some : 140 < n)
    (s : SectorId) : Thrifty n t ⟨{ t.record with doubleIndirect := s }, t.data, t.children⟩ := by
  refine ⟨Nat.le_max_left .., Nat.le_trans ?_ (Nat.le_max_right ..)⟩
  unfold blocks
  rw [length_blocks, h.maps.noTop e, List.length_nil, indexSectors_eq, if_pos some,
    if_pos (show 12 < n by omega)]
  split <;> split <;> omega

/-! ## What a file lacks -/

omit [Promise] in
theorem lacking_eq (t : Tree) (n : Nat) : MappedSectors.lacking ⟨t.data, t.blocks⟩ n =
    if n ≤ t.data.length then 0 else totalSectors n - t.sectors.length := by
  unfold MappedSectors.lacking sectors
  rw [List.length_append, Nat.sub_sub]

/-- A tree that was given `n` data sectors and no more than these need got what it lacked. -/
theorem Thrifty.length_sectors (h : t.Sound a) (h' : t'.Sound b) (thrifty : Thrifty n t t')
    (enough : n ≤ t'.data.length) (more : t.sectors.length ≤ t'.sectors.length) :
    t'.sectors.length = t.sectors.length + MappedSectors.lacking ⟨t.data, t.blocks⟩ n := by
  obtain ⟨data, blocks⟩ := thrifty
  have least := h'.indexSectors_le
  rw [lacking_eq]
  unfold sectors totalSectors at *
  rw [List.length_append, List.length_append] at *
  split
  · next there =>
    have mono := indexSectors_mono there
    have least := h.indexSectors_le
    omega
  · next missing =>
    have before := h.blocks_le (Nat.lt_of_not_le missing)
    have data : t'.data.length = n := by omega
    rw [data] at least
    omega

/-- A tree that has less than `n` data sectors, with fewer free sectors than data sectors missing,
got less than it lacked. -/
theorem Sound.length_sectors_lt {free : Nat} (h' : t'.Sound b) (longer : t.data.length ≤ t'.data.length)
    (short : free < n - t'.data.length) :
    t'.sectors.length + free < t.sectors.length + MappedSectors.lacking ⟨t.data, t.blocks⟩ n := by
  have blocks := h'.blocks_le (show t'.data.length < n by omega)
  rw [lacking_eq, if_neg (by omega)]
  unfold sectors totalSectors
  rw [List.length_append, List.length_append]
  omega

end Tree

end SectorVolume
