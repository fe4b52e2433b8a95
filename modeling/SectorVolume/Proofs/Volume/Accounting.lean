import SectorVolume.Proofs.Volume.Runs

/-!
# Accounting for the sectors of a volume

The sectors that are taken are told from what the client has and what the records of its live inodes
list. Failing transfers may leave further sectors taken, but never give one to two holders. As long
as none failed the bitmap accounts for every sector.
-/

namespace SectorVolume

open SectorVolume.Action

namespace FreeMap

variable {m : FreeMap} {L : SectorId → Sector} {first n : Nat} {taken : List Nat}

/-- The clear bits are those of the numbers from `first` on that are not taken. -/
theorem clearBits_add (last : m.total ≤ m.sectors * 4096) (nodup : taken.Nodup)
    (inside : ∀ k ∈ taken, first ≤ k ∧ k < m.total)
    (bits : ∀ k, k < m.sectors * 4096 →
      (m.bit L k = true ↔ k < first ∨ m.total ≤ k ∨ k ∈ taken)) :
    m.clearBits L + taken.length = m.total - first := by
  have perm : ((List.range (m.sectors * 4096)).filter (fun k => !m.bit L k) ++ taken).Perm
      (List.range' first (m.total - first)) := by
    refine (List.perm_ext_iff_of_nodup ?_ List.nodup_range').2 fun k => ?_
    · refine List.nodup_append.2 ⟨List.nodup_range.filter _, nodup, ?_⟩
      rintro k hk _ hk' rfl
      obtain ⟨lt, clear⟩ := List.mem_filter.1 hk
      have set := (bits k (List.mem_range.1 lt)).2 (.inr (.inr hk'))
      simp [set] at clear
    · rw [List.mem_append, List.mem_filter, List.mem_range, List.mem_range'_1, Bool.not_eq_true']
      constructor
      · rintro (⟨lt, clear⟩ | hk)
        · obtain ⟨from_first, below⟩ := not_or.1 (mt (bits k lt).2 (by simp [clear]))
          have below := (not_or.1 below).1
          omega
        · have := inside k hk
          omega
      · intro between
        by_cases hk : k ∈ taken
        · exact .inr hk
        · refine .inl ⟨by omega, ?_⟩
          rw [← Bool.not_eq_true, bits k (by omega), not_or, not_or]
          exact ⟨by omega, by omega, hk⟩
  have length := perm.length_eq
  rw [List.length_append, List.length_range', ← List.countP_eq_length_filter] at length
  exact length

/-- The number of clear bits is less than that of all lists of free sectors. -/
theorem clearBits_lt (bits : m.sectors * 4096 ≤ UInt32.size)
    (short : ∀ ids : List SectorId, ids.Nodup →
      (∀ id ∈ ids, id.toNat < m.sectors * 4096 ∧ m.bit L id.toNat = false) → ids.length < n) :
    m.clearBits L < n := by
  have below : ∀ k ∈ (List.range (m.sectors * 4096)).filter fun k => !m.bit L k,
      k < m.sectors * 4096 ∧ m.bit L k = false := by
    intro k hk
    obtain ⟨lt, clear⟩ := List.mem_filter.1 hk
    exact ⟨List.mem_range.1 lt, by simpa using clear⟩
  have number : ∀ k ∈ (List.range (m.sectors * 4096)).filter fun k => !m.bit L k,
      (UInt32.ofNat k).toNat = k := fun k hk =>
    UInt32.toNat_ofNat_of_lt' (Nat.lt_of_lt_of_le (below k hk).1 bits)
  have length := short (((List.range (m.sectors * 4096)).filter fun k => !m.bit L k).map UInt32.ofNat)
    ((List.nodup_range.filter _).map_on fun k hk k' hk' e => by
      rw [← number k hk, e, number k' hk']) fun id hid => by
        obtain ⟨k, hk, rfl⟩ := List.mem_map.1 hid
        rw [number k hk]
        exact below k hk
  rwa [List.length_map, ← List.countP_eq_length_filter] at length

end FreeMap

namespace Volume

/-- The number of free sectors, as the bitmap has it. -/
def spare (total : UInt32) (v : Volume) : Nat :=
  (FreeMap.ofTotal total.toNat).clearBits v.space.storage.logical

/-- The sectors that the client has for inodes, and those that the records of the live inodes and
their index blocks list. -/
def holdings (v : Volume) (c : Client) : List SectorId :=
  c.inodes ++ c.live.flatMap fun s => (v.mappedOf s).data ++ (v.mappedOf s).index

section

variable [Promise] {floor : Nat} {v v₀ : Volume} {c : Client} {trees : SectorId → Tree}
  {total : UInt32} {time : Int64}

theorem Inv.holdings_eq (h : v.Inv floor c trees) : v.holdings c = c.sectors trees := by
  unfold holdings Client.sectors
  refine congrArg _ (Client.flatMap_congr_of_mem fun s hs => ?_)
  rw [(h.files s hs).mappedOf_eq]
  rfl

/-- A volume keeps its bitmap. -/
theorem Follows.allocator_eq (follows : v₀.Follows v)
    (allocator : v₀.space.allocator = .bitmap (FreeMap.ofTotal total.toNat)) (sound : v.space.Sound)
    (room : 1 + bitmapSectors total.toNat ≤ Promise.sectors) (words : Promise.sectors ≤ wordRange32)
    (some : 0 < total.toNat) : v.space.allocator = .bitmap (FreeMap.ofTotal total.toNat) := by
  have enough := le_bitmapSectors total.toNat
  have positive : 0 < bitmapSectors total.toNat := by omega
  have own : ∀ s, v.space.allocator.own s ↔ (FreeMap.ofTotal total.toNat).Holds s := by
    intro s
    have own := congrFun follows.stock.own s
    unfold Space.stock at own
    simp only [allocator] at own
    exact iff_of_eq own
  have bound : v.space.allocator.bound = total.toNat := by
    have bound := follows.stock.bound
    unfold Space.stock at bound
    simp only [allocator] at bound
    exact bound
  have valid := sound.allocator
  cases e : v.space.allocator with
  | supplied supplier memory =>
    rw [e] at own
    refine ((own 1).2 ⟨Nat.le_refl 1, ?_⟩).elim
    show 1 < 1 + bitmapSectors total.toNat
    omega
  | bitmap m =>
    rw [e] at own bound valid
    have placed := FreeMap.placed_ofTotal room words total.toNat_lt
    rw [FreeMap.eq_of_holds placed valid.1 positive own bound]

/-- The bits that are set, and those of them that are accounted for. -/
structure Accounts (total : Nat) (v : Volume) (c : Client) : Prop where
  allocator : v.space.allocator = .bitmap (FreeMap.ofTotal total)
  nodup : (v.holdings c).Nodup
  inside : ∀ id ∈ v.holdings c, 1 + bitmapSectors total ≤ id.toNat ∧ id.toNat < total
  set : ∀ id ∈ v.holdings c, (FreeMap.ofTotal total).bit v.space.storage.logical id.toNat = true

omit [Promise] in
/-- Fewer free sectors than any list of them has are fewer than the bitmap has. -/
theorem spare_lt (allocator : v.space.allocator = .bitmap (FreeMap.ofTotal total.toNat)) {n : Nat}
    (short : v.space.stock.Short n) : v.spare total < n := by
  refine FreeMap.clearBits_lt (bitmapSectors_le total.toNat_lt) fun ids nodup all => ?_
  exact short ids nodup fun id hid => (Space.free_iff_of_bitmap allocator).2 (all id hid)

namespace Inv

variable (h : v.Inv floor c trees)
  (allocator : v.space.allocator = .bitmap (FreeMap.ofTotal total.toNat))

include h allocator

/-- What the client has is taken, once, and not of what the volume keeps for itself. -/
theorem accounts : v.Accounts total.toNat c := by
  have enough := le_bitmapSectors total.toNat
  have holdings := h.holdings_eq
  refine ⟨allocator, holdings ▸ h.owns.nodup, fun id hid => ?_, fun id hid => ?_⟩
  · exact (h.space.usable_iff allocator).1 (h.owns.held id (holdings ▸ hid)).1
  · obtain ⟨usable, taken⟩ := h.owns.held id (holdings ▸ hid)
    obtain ⟨-, below⟩ := (h.space.usable_iff allocator).1 usable
    rw [Space.free_iff_of_bitmap allocator] at taken
    by_contra clear
    exact taken ⟨Nat.lt_of_lt_of_le below enough, Bool.not_eq_true _ ▸ clear⟩

/-- As long as no transfer failed, what is not accounted for is free. -/
theorem mem_holdings (clean : v.space.stock.failures = floor) {k : Nat}
    (set : (FreeMap.ofTotal total.toNat).bit v.space.storage.logical k = true)
    (first : 1 + bitmapSectors total.toNat ≤ k) (last : k < total.toNat) :
    ∃ id ∈ v.holdings c, id.toNat = k := by
  have small := total.toNat_lt
  have size : UInt32.size = 2 ^ 32 := rfl
  have number : (UInt32.ofNat k).toNat = k := UInt32.toNat_ofNat_of_lt' (by omega)
  have usable : v.space.stock.Usable (UInt32.ofNat k) :=
    (h.space.usable_iff allocator).2 (by omega)
  refine ⟨_, ?_, number⟩
  rw [h.holdings_eq]
  by_contra notin
  have free := h.owns.unleaked clean _ usable notin
  have clear := ((Space.free_iff_of_bitmap allocator).1 free).2
  rw [number, set] at clear
  cases clear

/-- What no one can have is never free. -/
theorem outside_set {k : Nat} (there : k < bitmapSectors total.toNat * 4096)
    (outside : k < 1 + bitmapSectors total.toNat ∨ total.toNat ≤ k) :
    (FreeMap.ofTotal total.toNat).bit v.space.storage.logical k = true := by
  have small : bitmapSectors total.toNat * 4096 ≤ 2 ^ 32 := bitmapSectors_le total.toNat_lt
  have size : UInt32.size = 2 ^ 32 := rfl
  have number : (UInt32.ofNat k).toNat = k := UInt32.toNat_ofNat_of_lt' (by omega)
  by_contra clear
  have free : v.space.stock.free (UInt32.ofNat k) := by
    rw [Space.free_iff_of_bitmap allocator, number]
    exact ⟨there, Bool.not_eq_true _ ▸ clear⟩
  have inside := (h.space.usable_iff allocator).1 (h.space.usable _ free)
  omega

/-- The bits that are set as long as no transfer failed. -/
theorem bit_iff (clean : v.space.stock.failures = floor) {k : Nat}
    (there : k < bitmapSectors total.toNat * 4096) :
    (FreeMap.ofTotal total.toNat).bit v.space.storage.logical k = true ↔
      k < 1 + bitmapSectors total.toNat ∨ total.toNat ≤ k ∨ ∃ id ∈ v.holdings c, id.toNat = k := by
  constructor
  · intro set
    by_cases first : k < 1 + bitmapSectors total.toNat
    · exact .inl first
    · by_cases last : total.toNat ≤ k
      · exact .inr (.inl last)
      · exact .inr (.inr (h.mem_holdings allocator clean set (Nat.not_lt.1 first) (Nat.not_le.1 last)))
  · rintro (first | last | ⟨id, hid, rfl⟩)
    · exact h.outside_set allocator there (.inl first)
    · exact h.outside_set allocator there (.inr last)
    · exact (h.accounts allocator).set id hid

/-- Every sector behind the bitmap is counted as free or accounted for. -/
theorem clearBits_add (clean : v.space.stock.failures = floor) :
    (FreeMap.ofTotal total.toNat).clearBits v.space.storage.logical + (v.holdings c).length =
      total.toNat - (1 + bitmapSectors total.toNat) := by
  have accounts := h.accounts allocator
  have nodup : ((v.holdings c).map UInt32.toNat).Nodup :=
    accounts.nodup.map fun _ _ => UInt32.toNat_inj.1
  rw [← (v.holdings c).length_map UInt32.toNat]
  refine FreeMap.clearBits_add (le_bitmapSectors total.toNat) nodup ?_ fun k there => ?_
  · intro k hk
    obtain ⟨id, hid, rfl⟩ := List.mem_map.1 hk
    exact accounts.inside id hid
  · rw [List.mem_map]
    exact h.bit_iff allocator clean there

/-- As long as the disk works and a sector is free, one is handed out. -/
theorem allocates_one (works : Promise.works) (some : 0 < v.spare total) :
    ∃ id sp, Space.allocate 1 v.space = .ok [id] sp := by
  have allocating := Space.meets_allocate h.space (by decide : FreeMap.Listable 1)
  cases e : Space.allocate 1 v.space with
  | ok ids sp =>
    obtain ⟨id, rfl⟩ := List.length_eq_one_iff.1 (allocating.ok e).2.1
    exact ⟨id, sp, rfl⟩
  | error f sp =>
    obtain ⟨_, -, sound, took, denies⟩ := allocating.ends.error e
    rcases denies with ⟨-, short | failed⟩ | ⟨broke, -⟩
    · have short : v.space.stock.Short 1 := short.of_free fun id free =>
        took.unleaked (h.space.steady sound works) id free List.not_mem_nil
      have none := spare_lt allocator short
      omega
    · exact absurd failed (Nat.not_lt_of_le (Nat.le_of_eq (h.space.steady sound works)))
    · exact (sound.not_broke works broke).elim

end Inv

/-- A file with few data sectors has no index blocks. -/
theorem Inv.index_of_few (h : v.Inv floor c trees) {s : SectorId} (hs : s ∈ c.live)
    (few : (v.mappedOf s).data.length < 12) : (v.mappedOf s).index = [] := by
  have file := h.files s hs
  rw [file.mappedOf_eq] at few ⊢
  exact file.tree.blocks_of_few few

end

variable {disk : Disk} {log : Log} {total : UInt32} {capacity : Nat} {time : Int64} {v : Volume}
  {c : Client}

/-- The invariant holds, and the volume has its bitmap. -/
theorem Reachable.inv_of_bitmap (h : Reachable disk log total capacity time v c) :
    let _ := promise disk total
    v.space.allocator = .bitmap (FreeMap.ofTotal total.toNat) ∧
      ∃ trees, v.Inv disk.failures c trees := by
  let : Promise := promise disk total
  obtain ⟨v₀, trees, fresh, follows, inv⟩ := h.inv id (Nat.le_refl _) (Nat.le_of_lt total.toNat_lt)
  have room := h.room
  exact ⟨follows.allocator_eq fresh.allocator inv.space (Nat.le_of_lt room) (Nat.le_of_lt total.toNat_lt)
    (by omega), trees, inv⟩

/-- What a request leads to has the bitmap as well. -/
theorem Reachable.bitmap_of_follows (h : Reachable disk log total capacity time v c) :
    let _ := promise disk total
    ∀ {w : Volume}, v.Follows w → w.space.Sound →
      w.space.allocator = .bitmap (FreeMap.ofTotal total.toNat) := by
  let : Promise := promise disk total
  obtain ⟨allocator, -⟩ := h.inv_of_bitmap
  have room := h.room
  intro _ w follows sound
  exact follows.allocator_eq allocator sound (Nat.le_of_lt room) (Nat.le_of_lt total.toNat_lt)
    (by omega)

/-- As long as no transfer failed, the free sectors are those that the client does not hold. -/
theorem Reachable.spare_add (h : Reachable disk log total capacity time v c)
    (clean : v.space.storage.disk.failures = disk.failures) :
    v.spare total + (v.holdings c).length = total.toNat - (1 + bitmapSectors total.toNat) := by
  let : Promise := promise disk total
  obtain ⟨allocator, _, inv⟩ := h.inv_of_bitmap
  exact inv.clearBits_add allocator clean

/-- As long as no transfer failed, the set bits are those of the superblock, the bitmap, the numbers
behind the end, and of what the client has, once for every sector, and all others are counted as
free. -/
theorem Reachable.taken_exactly (h : Reachable disk log total capacity time v c)
    (clean : v.space.storage.disk.failures = disk.failures) :
    v.space.allocator = .bitmap (FreeMap.ofTotal total.toNat) ∧
      (∀ k, k < bitmapSectors total.toNat * 4096 →
        ((FreeMap.ofTotal total.toNat).bit v.space.storage.logical k = true ↔
          k < 1 + bitmapSectors total.toNat ∨ total.toNat ≤ k ∨ ∃ id ∈ v.holdings c, id.toNat = k)) ∧
      (v.holdings c).Nodup ∧
      (∀ id ∈ v.holdings c, 1 + bitmapSectors total.toNat ≤ id.toNat ∧ id.toNat < total.toNat) ∧
      Ends freeCount v
        (fun count _ => count + (v.holdings c).length =
          total.toNat - (1 + bitmapSectors total.toNat))
        fun e v' => (∃ cause, e = .fault (.device cause)) ∧
          v.space.storage.disk.failures < v'.space.storage.disk.failures := by
  let : Promise := promise disk total
  obtain ⟨allocator, trees, inv⟩ := h.inv_of_bitmap
  have accounts := inv.accounts allocator
  refine ⟨allocator, fun k => inv.bit_iff allocator clean, accounts.nodup, accounts.inside, ?_⟩
  refine (meets_freeCount inv).ends.mono (fun count v' h' => ?_) ?_
  · rw [h'.2 _ allocator]
    exact inv.clearBits_add allocator clean
  · rintro e v' ⟨cause, rfl, -, ⟨cause, rfl⟩, failed⟩
    exact ⟨⟨cause, rfl⟩, failed⟩

/-- What there is in a small memory beside the superblock, the bitmap, the inode of the file and its
sectors is free. -/
theorem Reachable.spare_of_memory {s : SectorId} {id : NodeId}
    (run : Reachable (Disk.memory 16) {} 16 1 0 v ⟨[], [s], [], ⟨[id], [], []⟩⟩)
    (clean : v.space.storage.disk.failures = 0) :
    v.spare 16 + (1 + (v.mappedOf s).data.length + (v.mappedOf s).index.length) = 14 := by
  have added := run.spare_add clean
  have all : (16 : UInt32).toNat - (1 + bitmapSectors (16 : UInt32).toNat) = 14 := by decide
  rw [all] at added
  simpa [holdings, Client.inodes, Nat.add_assoc, Nat.add_comm 1] using added

/-- With a file of two data sectors in a small memory eleven sectors are free. -/
theorem exists_spare : ∃ v s id, Reachable (Disk.memory 16) {} 16 1 0 v ⟨[], [s], [], ⟨[id], [], []⟩⟩ ∧
    v.space.storage.disk.failures = 0 ∧ (v.holdings ⟨[], [s], [], ⟨[id], [], []⟩⟩).length = 3 ∧
      v.spare 16 = 11 := by
  obtain ⟨v, s, id, run, -, clean, many⟩ := exists_open_file
  let : Promise := memoryPromise
  obtain ⟨trees, inv⟩ := run.probed.inv_of_memory
  have index := inv.index_of_few (List.mem_singleton_self s) (by rw [many]; decide)
  have spare := run.spare_of_memory clean
  have length : (v.holdings ⟨[], [s], [], ⟨[id], [], []⟩⟩).length = 3 := by
    simp [holdings, Client.inodes, many, index]
  rw [many, index, List.length_nil] at spare
  exact ⟨v, s, id, run, clean, length, by omega⟩

/-- With a file in it a small memory is accounted for. -/
theorem taken_exactly_of_open_file : ∃ v s id v',
    Reachable (Disk.memory 16) {} 16 1 0 v ⟨[], [s], [], ⟨[id], [], []⟩⟩ ∧
      (v.holdings ⟨[], [s], [], ⟨[id], [], []⟩⟩).length = 3 ∧
      (∀ k, k < 4096 → ((FreeMap.ofTotal 16).bit v.space.storage.logical k = true ↔
        k < 2 ∨ 16 ≤ k ∨ ∃ id' ∈ v.holdings ⟨[], [s], [], ⟨[id], [], []⟩⟩, id'.toNat = k)) ∧
      freeCount v = .ok 11 v' := by
  obtain ⟨v, s, id, run, clean, length, -⟩ := exists_spare
  obtain ⟨-, bits, -, -, counting⟩ := run.taken_exactly clean
  rw [length] at counting
  let : Promise := memoryPromise
  cases e : freeCount v with
  | ok count v' =>
    have all : count + 3 = (16 : UInt32).toNat - (1 + bitmapSectors (16 : UInt32).toNat) :=
      counting.ok e
    obtain rfl : count = 11 := Nat.add_right_cancel all
    exact ⟨v, s, id, v', run, length, bits, e⟩
  | error f v' =>
    obtain ⟨-, failed⟩ := counting.error e
    obtain ⟨_, inv'⟩ := (run.failed (r := .freeCount) trivial e).probed.inv_of_memory
    have clean' : v'.space.storage.disk.failures = 0 := inv'.clean trivial
    exact absurd failed (by rw [clean']; exact Nat.not_lt_zero _)

/-- Whatever transfers failed, what the client has is taken and has one holder, an allocation does
not hand it out again, and no request gives back what is free or finds a record with more bytes than
sectors. -/
theorem Reachable.sole_holders (h : Reachable disk log total capacity time v c) :
    v.space.allocator = .bitmap (FreeMap.ofTotal total.toNat) ∧
      (∀ id ∈ v.holdings c,
        (FreeMap.ofTotal total.toNat).bit v.space.storage.logical id.toNat = true) ∧
      (v.holdings c).Nodup ∧
      (∀ count, Ends (Space.allocate count) v.space (fun ids _ => ∀ id ∈ ids, id ∉ v.holdings c)
        fun _ _ => True) ∧
      ∀ r : Request, r.Allowed c → Ends r.perform v (fun _ _ => True) fun e _ =>
        (∀ sector, e ≠ .violation (.alreadyFree sector)) ∧ e ≠ .violation .lengthBeyondMap := by
  let : Promise := promise disk total
  obtain ⟨allocator, trees, inv⟩ := h.inv_of_bitmap
  have accounts := inv.accounts allocator
  refine ⟨allocator, accounts.set, accounts.nodup, fun count => ?_, fun r allowed => ?_⟩
  · by_cases listable : FreeMap.Listable count
    · refine (Space.meets_allocate inv.space listable).ends.mono
        (fun ids sp taken id hid held => ?_) fun _ _ _ => trivial
      rw [inv.holdings_eq] at held
      exact (inv.owns.held id held).2 (taken.2.2.free id hid)
    · exact ends_of_error (Space.allocate_of_not_listable allocator listable) trivial
  · refine (Request.ends_perform inv r allowed).mono (fun _ _ _ => trivial) ?_
    rintro e v' (⟨-, refused⟩ | ⟨cause, rfl, -⟩)
    · constructor
      · rintro sector rfl
        cases r <;> simp [Request.Refused, Request.Exhausted] at refused
      · rintro rfl
        cases r <;> simp [Request.Refused, Request.Exhausted] at refused
    · exact ⟨nofun, nofun⟩

/-- In a small memory the sectors of a file are taken, and another one is handed out. -/
theorem sole_holders_of_open_file : ∃ v s id other sp,
    Reachable (Disk.memory 16) {} 16 1 0 v ⟨[], [s], [], ⟨[id], [], []⟩⟩ ∧
      (v.holdings ⟨[], [s], [], ⟨[id], [], []⟩⟩).length = 3 ∧
      (∀ id' ∈ v.holdings ⟨[], [s], [], ⟨[id], [], []⟩⟩,
        (FreeMap.ofTotal 16).bit v.space.storage.logical id'.toNat = true) ∧
      Space.allocate 1 v.space = .ok [other] sp ∧
        other ∉ v.holdings ⟨[], [s], [], ⟨[id], [], []⟩⟩ := by
  obtain ⟨v, s, id, run, -, length, spare⟩ := exists_spare
  obtain ⟨-, set, -, allocating, -⟩ := run.sole_holders
  let : Promise := promise (Disk.memory 16) 16
  obtain ⟨allocator, _, inv⟩ := run.inv_of_bitmap
  obtain ⟨other, sp, e⟩ := inv.allocates_one allocator working_memory (by omega)
  exact ⟨v, s, id, other, sp, run, length, set, e,
    (allocating 1).ok e other (List.mem_singleton_self other)⟩

end Volume

end SectorVolume
