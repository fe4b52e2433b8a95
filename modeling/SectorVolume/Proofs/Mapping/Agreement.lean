import SectorVolume.Proofs.Mapping.Views

/-!
# Creating at once and growing step by step

A file can be given all its sectors at once, or bytes are made writable one after the other, in any
order. On a disk that works both ways lead to the same: as many data sectors as the last byte asks
for and the index blocks that these need, all of them taken for the first time, and giving them back
leaves the free sectors as they were. The two only fail when there are fewer free sectors than that.
-/

namespace SectorVolume

open SectorVolume.Action

namespace Mapping

variable {m m' : Mapping} {t t' : Tree} {n : Nat} {offsets : List Nat}

/-- Makes bytes writable, one after the other. -/
def growThrough : List Nat → Action Mapping Unit
  | [] => return ()
  | offset :: rest => do
    let _ ← translate offset true
    growThrough rest

/-- From `m`, where the record had no sectors, to `m'` it was given the sectors of a file of `n`
data sectors, and no others were taken. No transfer can fail when they are used and given back. -/
structure Built (n : Nat) (m m' : Mapping) : Prop where
  mapped : Ends mapped m' (fun listing _ => listing = m'.listing) fun _ _ => False
  data : m'.listing.data.length = n
  index : m'.listing.index.length = totalSectors n - n
  nodup : (m'.listing.data ++ m'.listing.index).Nodup
  free : ∀ id ∈ m'.listing.data ++ m'.listing.index, m.space.stock.free id
  left : ∀ id, m'.space.stock.free id ↔
    m.space.stock.free id ∧ id ∉ m'.listing.data ++ m'.listing.index
  zero : ∀ id ∈ m'.listing.data,
    Ends (onStorage (Storage.readSector id)) m' (fun bytes _ => bytes = Sector.zero) fun _ _ => False
  lookup : ∀ offset, Ends (translate offset false) m'
    (fun x _ => x = m'.listing.data[offset / 512]? ∧ (x.isSome ↔ offset < n * 512)) fun _ _ => False
  release : Ends release m'
    (fun freed m'' => freed = totalSectors n ∧ m''.record = m.record ∧
      ∀ id, m''.space.stock.free id ↔ m.space.stock.free id) fun _ _ => False

variable [Promise]

/-- On a disk that works the sectors of a new tree can be used and given back. -/
theorem built_of_tree {X : SectorId → Prop} (works : Promise.works) (h : m.space.Sound)
    (bare : m.record.withoutSectors = m.record) (fits : m.record.length.toNat ≤ n * 512)
    (sound : m'.Sound t) (took : Stock.Took X t.sectors m.space.stock m'.space.stock)
    (data : t.data.length = n) (sectors : t.sectors.length = totalSectors n)
    (zero : ∀ id ∈ t.data, m'.space.stock.content id = Sector.zero)
    (rest : m'.record.withoutSectors = m.record.withoutSectors) : m.Built n m' := by
  have clean := h.steady sound.space works
  have stops : ∀ {e : Failure} {m'' : Mapping},
      (∃ c, e = .fault c ∧ m'.space.Fails c m''.space ∧ m''.record = m'.record) → False := by
    rintro e m'' ⟨c, -, fails, -⟩
    exact fails.1.sound.not_broke works fails.2
  have listing := sound.listing_eq
  have listed : m'.listing.data ++ m'.listing.index = t.sectors := by rw [listing]; rfl
  have left : ∀ id, m'.space.stock.free id ↔ m.space.stock.free id ∧ id ∉ t.sectors := fun id =>
    ⟨took.left id, fun free => took.unleaked clean id free.1 free.2⟩
  constructor
  case mapped =>
    have reading := meets_onSpace (Space.meets_mapped sound.space sound.tree)
    rw [sound.record] at reading
    rw [listing]
    exact ends_get_bind (reading.ends.mono (fun _ _ h' => h'.1.1) fun _ _ => stops)
  case data => rw [listing, data]
  case index =>
    unfold Tree.sectors at sectors
    rw [List.length_append, data] at sectors
    rw [listing]
    simp only
    omega
  case nodup => rw [listed]; exact sound.tree.nodup
  case free => rw [listed]; exact took.free
  case left => rw [listed]; exact left
  case zero =>
    intro id hid
    rw [listing] at hid
    have held := sound.tree.held id (Tree.mem_sectors_data hid)
    have reading := meets_onSpace (Space.meets_onStorage_rests sound.space
      (Storage.meets_readSector sound.space.storage held.1.lt))
    refine reading.ends.mono (fun bytes _ h' => ?_) fun _ _ => stops
    exact h'.1.1.trans (zero id hid)
  case lookup =>
    intro offset
    have looking := meets_onSpace (Space.meets_lookup sound.space sound.tree offset)
    rw [sound.record] at looking
    rw [listing]
    unfold translate
    rw [if_neg Bool.false_ne_true]
    refine ends_get_bind (looking.ends.mono (fun x _ h' => ⟨h'.1.1, ?_⟩) fun _ _ => stops)
    rw [h'.1.1, isSome_getElem?, data]
    omega
  case release =>
    have same : m'.record.withoutSectors.length = m.record.withoutSectors.length :=
      congrArg Record.length rest
    have length : m'.record.length = m.record.length := same
    have enough : dataSectors m'.record.length.toNat ≤ t.data.length := by
      rw [length, data]
      unfold dataSectors sectorSize
      omega
    refine (meets_release sound enough).ends.mono ?_ ?_
    · rintro freed m'' ⟨rfl, sound'', gave, record⟩
      have clean' := sound.space.steady sound'' works
      refine ⟨sectors, record.trans (rest.trans bare), fun id => ⟨fun free => ?_, fun free => ?_⟩⟩
      · exact (gave.back id free).elim (fun free => (took.left id free).1) (took.free id)
      · by_cases hid : id ∈ t.sectors
        · exact gave.all clean' id hid
        · exact gave.kept id ((left id).2 ⟨free, hid⟩)
    · rintro _ m'' ⟨c, -, sound'', -, broke, -⟩
      exact sound''.not_broke works broke

/-! ## At once -/

/-- The sectors of a tree that was created at once are those that were handed out, every one once.
-/
theorem Creates.perm_drawn {X : SectorId → Prop} (creates : Creates X m t m') (h : m.space.Sound)
    (some : 0 < t.data.length) (le : t.data.length ≤ doubleBound) :
    (m.space.drawn (totalSectors t.data.length)).Nodup ∧
      (m.space.drawn (totalSectors t.data.length)).length = totalSectors t.data.length ∧
      t.sectors.Perm (m.space.drawn (totalSectors t.data.length)) := by
  have sub := creates.drawn
  have nodup := creates.sound.tree.nodup
  have blocks := creates.sound.tree.indexSectors_le
  have length : t.sectors.length = t.data.length + t.blocks.length := List.length_append
  cases e : m.space.allocate (totalSectors t.data.length) with
  | error f sp =>
    unfold Space.drawn at sub
    rw [e] at sub
    have none := List.eq_nil_of_subset_nil sub
    rw [none, List.length_nil] at length
    omega
  | ok ids sp =>
    obtain ⟨-, many, taken⟩ := (Space.meets_allocate h (listable_totalSectors le)).ok e
    rw [Space.drawn_eq e] at sub ⊢
    have few := (nodup.subperm sub).length_le
    refine ⟨taken.nodup, many, (nodup.subperm sub).perm_of_length_le ?_⟩
    unfold totalSectors at many
    omega

/-- A file that is created at once has its sectors, unless there are too few. -/
theorem ends_populate_built (works : Promise.works) (h : m.space.Sound)
    (bare : m.record.withoutSectors = m.record) (some : 0 < n) (le : n ≤ doubleBound)
    (fits : m.record.length.toNat ≤ n * 512) :
    Ends (populate (n * 512)) m
      (fun _ m' => m.Built n m' ∧ (m.space.drawn (totalSectors n)).Nodup ∧
        (m.space.drawn (totalSectors n)).length = totalSectors n ∧
        (m'.listing.data ++ m'.listing.index).Perm (m.space.drawn (totalSectors n)))
      fun _ _ => m.space.stock.Short (totalSectors n) := by
  have exact : dataSectors (n * 512) = n := by
    unfold dataSectors sectorSize
    omega
  have within : n * 512 ≤ doubleBound * 512 := Nat.mul_le_mul_right 512 le
  have populating := meets_populate h bare within
  rw [exact] at populating
  refine populating.ends.mono ?_ ?_
  · rintro _ m' ⟨t, creates, rfl⟩
    obtain ⟨nodup, many, perm⟩ := creates.perm_drawn h some le
    have built := built_of_tree works h bare fits creates.sound creates.took rfl
      (perm.length_eq.trans many) creates.zero creates.rest
    refine ⟨built, nodup, many, ?_⟩
    rw [creates.sound.listing_eq]
    exact perm
  · rintro _ m' ⟨c, -, denies, -⟩
    have clean := h.steady denies.sound works
    rcases denies.why with ⟨-, short | failed⟩ | ⟨broke, -⟩
    · refine short.of_free fun id free => ?_
      exact denies.took.unleaked clean id free List.not_mem_nil
    · omega
    · exact (denies.sound.not_broke works broke).elim

/-! ## Step by step -/

/-- Making bytes writable adds what the last of them asks for, or there are too few free sectors for
the data sectors that are missing. -/
theorem ends_growThrough (works : Promise.works) (h : m.Sound t)
    (inside : ∀ offset ∈ offsets, offset / 512 < n) (le : n ≤ doubleBound) :
    Ends (growThrough offsets) m
      (fun _ m' => ∃ t', m.Grows t m' t' ∧ Tree.Thrifty n t t' ∧
        ∀ offset ∈ offsets, offset / 512 < t'.data.length)
      fun _ m' => ∃ t', m.Grows t m' t' ∧ m'.space.stock.Short (n - t'.data.length) := by
  induction offsets generalizing m t with
  | nil => exact ends_pure ⟨t, h.refl, .refl n t, nofun⟩
  | cons offset rest ih =>
    have far := inside offset List.mem_cons_self
    have e : maxFileSize = doubleBound * 512 := rfl
    unfold growThrough translate
    rw [if_pos rfl]
    refine (meets_ensure h offset).ends.bind (fun _ m₁ h₁ => ?_) ?_
    · obtain ⟨t₁, grows₁, -, there, thrifty₁⟩ := h₁
      have there := there (by omega)
      refine (ih grows₁.sound fun o ho => inside o (List.mem_cons_of_mem _ ho)).mono ?_ ?_
      · rintro _ m₂ ⟨t₂, grows₂, thrifty₂, reached⟩
        refine ⟨t₂, grows₁.trans grows₂, (thrifty₁.mono far).trans thrifty₂, fun o ho => ?_⟩
        rcases List.mem_cons.1 ho with rfl | ho
        · exact Nat.lt_of_lt_of_le there grows₂.grows.data.length_le
        · exact reached o ho
      · rintro _ m₂ ⟨t₂, grows₂, short⟩
        exact ⟨t₂, grows₁.trans grows₂, short⟩
    · rintro _ m₁ ⟨c, -, t₁, grows₁, halts⟩
      have clean := h.space.steady grows₁.sound.space works
      refine ⟨t₁, grows₁, ?_⟩
      rcases halts.why.lacks with short | failed
      · exact short.mono (by omega)
      · omega

/-- With fewer free sectors than data sectors are missing there never were enough for all. -/
theorem Grows.short (works : Promise.works) (h : m.Sound t) (empty : t.sectors = [])
    (grows : m.Grows t m' t') (short : m'.space.stock.Short (n - t'.data.length)) :
    m.space.stock.Short (totalSectors n) := by
  intro ids nodup free
  have clean := h.space.steady grows.sound.space works
  have missing := short (ids.filter (· ∉ t'.sectors)) (nodup.filter _) fun id hid => by
    obtain ⟨hid, notin⟩ := List.mem_filter.1 hid
    exact (grows.grows.unleaked clean id (free id hid)).resolve_left (by simpa using notin)
  have less := grows.sound.tree.length_sectors_lt grows.grows.data.length_le missing
  have within : (ids.filter (· ∈ t'.sectors)).length ≤ t'.sectors.length :=
    ((nodup.filter _).subperm fun id hid => by simpa using (List.mem_filter.1 hid).2).length_le
  have split := List.length_eq_length_filter_add (l := ids) (· ∈ t'.sectors)
  simp only [← decide_not] at split
  have lacking : MappedSectors.lacking ⟨t.data, t.blocks⟩ n ≤ totalSectors n := by
    rw [Tree.lacking_eq, empty]
    split <;> omega
  rw [empty, List.length_nil] at less
  omega

/-- A file whose bytes were made writable up to its last data sector has its sectors, unless there
are too few. -/
theorem ends_growThrough_built (works : Promise.works) (h : m.space.Sound)
    (bare : m.record.withoutSectors = m.record) (le : n ≤ doubleBound)
    (fits : m.record.length.toNat ≤ n * 512) (inside : ∀ offset ∈ offsets, offset / 512 < n)
    (last : ∃ offset ∈ offsets, offset / 512 + 1 = n) :
    Ends (growThrough offsets) m (fun _ m' => m.Built n m')
      fun _ _ => m.space.stock.Short (totalSectors n) := by
  have start := sound_bare h bare
  have empty := Tree.sectors_empty bare
  refine (ends_growThrough works start inside le).mono ?_ ?_
  · rintro _ m' ⟨t, grows, thrifty, reached⟩
    obtain ⟨offset, ho, e⟩ := last
    have there := reached offset ho
    have data : t.data.length = n := by
      have most : t.data.length ≤ max 0 n := thrifty.data
      omega
    obtain ⟨ids, took, perm⟩ := grows.grows.taken
    rw [empty, List.nil_append] at perm
    have sectors := Tree.Thrifty.length_sectors start.tree grows.sound.tree thrifty
      (Nat.le_of_eq data.symm) (by rw [empty]; exact Nat.zero_le _)
    rw [Tree.lacking_eq, empty, if_neg (by show ¬ n ≤ 0; omega), List.length_nil, Nat.zero_add,
      Nat.sub_zero] at sectors
    refine built_of_tree works h bare fits grows.sound (took.perm perm.symm) data sectors
      (fun id hid => grows.grows.zero id hid List.not_mem_nil) ?_
    rw [← grows.sound.record, grows.grows.rest]
  · rintro _ m' ⟨t, grows, short⟩
    exact grows.short works start empty short

/-! ## Both -/

/-- On a disk that works, with at least as many free sectors as `n` data sectors and their index
blocks are, a record without sectors gets exactly these: when it is created at once, out of the
sectors that are handed out for it, every one of them once, and when its bytes are made writable in
any order up to the last data sector. -/
theorem built_alike (works : Promise.works) (h : m.space.Sound)
    (bare : m.record.withoutSectors = m.record) (some : 0 < n) (le : n ≤ doubleBound)
    (fits : m.record.length.toNat ≤ n * 512)
    (enough : ∃ ids : List SectorId, ids.Nodup ∧ ids.length = totalSectors n ∧
      ∀ id ∈ ids, m.space.stock.free id) :
    Ends (populate (n * 512)) m
      (fun _ m' => m.Built n m' ∧ (m.space.drawn (totalSectors n)).Nodup ∧
        (m.space.drawn (totalSectors n)).length = totalSectors n ∧
        (m'.listing.data ++ m'.listing.index).Perm (m.space.drawn (totalSectors n)))
      (fun _ _ => False) ∧
    ∀ offsets : List Nat, (∀ offset ∈ offsets, offset / 512 < n) →
      (∃ offset ∈ offsets, offset / 512 + 1 = n) →
        Ends (growThrough offsets) m (fun _ m' => m.Built n m') fun _ _ => False := by
  obtain ⟨ids, nodup, many, free⟩ := enough
  have never : ¬ m.space.stock.Short (totalSectors n) := fun short => by
    have less := short ids nodup free
    omega
  refine ⟨?_, fun offsets inside last => ?_⟩
  · exact (ends_populate_built works h bare some le fits).mono (fun _ _ h => h)
      fun _ _ short => never short
  · exact (ends_growThrough_built works h bare le fits inside last).mono (fun _ _ h => h)
      fun _ _ short => never short

omit [Promise] in
/-- Over a queue of three free sectors a record of 1000 bytes has its two data sectors at once, and
by making its last byte writable before its first one. -/
theorem built_alike_of_queue : ∃ (_ : Promise) (m m₁ m₂ : Mapping),
    populate 1024 m = .ok () m₁ ∧ m.Built 2 m₁ ∧
      growThrough [999, 0] m = .ok () m₂ ∧ m.Built 2 m₂ := by
  let promise : Promise := ⟨True, 16⟩
  have disk : True → (Disk.memory 16).Working 16 := fun _ => ⟨nofun, by decide, rfl⟩
  obtain ⟨cache, hc⟩ : ∃ cache, Cache.create 1 = .ok cache := ⟨_, rfl⟩
  let sp : Space := ⟨⟨Disk.memory 16, cache, {}⟩, .supplied .queue (Queue.ofList [5, 1, 9])⟩
  have free : ∀ id, sp.stock.free id ↔ id ∈ [5, 1, 9] := by
    intro id
    show id ∈ (Queue.ofList [5, 1, 9] : Queue SectorId).toList ↔ _
    rw [Queue.toList_ofList]
  have usable : ([5, 1, 9] : List SectorId).all fun id => id ≠ 0 ∧ id.toNat < 16 := by decide
  have sound : sp.Sound := by
    refine ⟨(Storage.good_of_create hc disk).1, ?_, fun id hid => ?_⟩
    · show (Queue.ofList [5, 1, 9] : Queue SectorId).toList.Nodup
      rw [Queue.toList_ofList]
      decide
    · obtain ⟨some, lt⟩ := of_decide_eq_true (List.all_eq_true.1 usable id ((free id).1 hid))
      exact ⟨some, fun no => no, id.toNat_lt, lt⟩
  have fits : (Record.make 1000 false).length.toNat ≤ 2 * 512 := by decide
  obtain ⟨atOnce, stepwise⟩ := built_alike (m := ⟨sp, .make 1000 false⟩) (n := 2) trivial sound rfl
    (by decide) (by decide) fits
    ⟨[5, 1], by decide, by decide, fun id hid => (free id).2 (List.mem_append_left [9] hid)⟩
  obtain ⟨_, m₁, e₁, built₁, -⟩ := atOnce.succeeds
  obtain ⟨_, m₂, e₂, built₂⟩ :=
    (stepwise [999, 0] (by decide) ⟨999, by decide, by decide⟩).succeeds
  exact ⟨promise, _, m₁, m₂, e₁, built₁, e₂, built₂⟩

end Mapping

end SectorVolume
