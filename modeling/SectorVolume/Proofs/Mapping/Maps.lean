import SectorVolume.Proofs.Allocation.Space
import SectorVolume.Proofs.Mapping.Entries

/-!
# What a record maps

A record maps a list of data sectors, in the order of the file and without gaps. `Record.Maps` says
how the record and its index blocks, as they are in the content of a storage, spell out this list:
a tier is begun only when the one before is full. The index blocks are determined by the record but
for the children of the top block, which may be one more than the data sectors need.
-/

namespace SectorVolume

theorem indexSectors_eq (data : Nat) : indexSectors data =
    (if 12 < data then 1 else 0) + if 140 < data then 1 + (data - 140 + 127) / 128 else 0 := rfl

theorem indexSectors_mono {data data' : Nat} (le : data ≤ data') :
    indexSectors data ≤ indexSectors data' := by
  rw [indexSectors_eq, indexSectors_eq]
  split <;> split <;> split <;> split <;> omega

namespace Record

open SectorVolume.Action

variable {L L' : SectorId → Sector} {r : Record} {data children : List SectorId}

/-- The data sectors that an index block names whose first one is number `first`. -/
def chunk (data : List SectorId) (first : Nat) : List SectorId := (data.drop first).take 128

/-- The index blocks of a record. -/
def blocks (r : Record) (children : List SectorId) : List SectorId :=
  (if r.indirect = 0 then [] else [r.indirect]) ++
    if r.doubleIndirect = 0 then [] else r.doubleIndirect :: children

/-- The record maps the data sectors `data`, with `children` below the top block. -/
structure Maps (L : SectorId → Sector) (r : Record) (data children : List SectorId) : Prop where
  nonzero : ∀ id ∈ data ++ children, id ≠ 0
  direct : r.direct = listed 12 (data.take 12)
  noFirst : r.indirect = 0 → data.length ≤ 12
  first : r.indirect ≠ 0 → 12 ≤ data.length ∧ L r.indirect = IndexBlock.sectorOf (chunk data 12)
  noTop : r.doubleIndirect = 0 → children = []
  top : r.doubleIndirect ≠ 0 →
    r.indirect ≠ 0 ∧ 140 ≤ data.length ∧ L r.doubleIndirect = IndexBlock.sectorOf children
  reach : data.length ≤ 140 + 128 * children.length
  full : ∀ k, k < children.length → 140 + 128 * k ≤ data.length
  width : children.length ≤ 128
  child : ∀ (k : Nat) (hk : k < children.length),
    L children[k] = IndexBlock.sectorOf (chunk data (140 + 128 * k))

/-! ## Chunks -/

theorem length_chunk (data : List SectorId) (first : Nat) :
    (chunk data first).length = min 128 (data.length - first) := by
  simp [chunk]

theorem getElem?_chunk (data : List SectorId) (first : Nat) {i : Nat} (hi : i < 128) :
    (chunk data first)[i]? = data[first + i]? := by
  rw [chunk, List.getElem?_take_of_lt hi, List.getElem?_drop]

theorem getD_chunk (data : List SectorId) (first : Nat) {i : Nat} (hi : i < 128) :
    (chunk data first).getD i 0 = data.getD (first + i) 0 := by
  rw [List.getD_eq_getElem?_getD, getElem?_chunk data first hi, List.getD_eq_getElem?_getD]

theorem mem_of_mem_chunk {first : Nat} {id : SectorId} (h : id ∈ chunk data first) : id ∈ data :=
  List.mem_of_mem_drop (List.mem_of_mem_take h)

/-- Chunks that begin behind the end are empty, and new entries do not change full ones. -/
theorem chunk_append_of_full (new : List SectorId) {first : Nat}
    (h : first + 128 ≤ data.length) : chunk (data ++ new) first = chunk data first := by
  unfold chunk
  rw [List.drop_append_of_le_length (by omega), List.take_append_of_le_length (by simp; omega)]

theorem chunk_append (new : List SectorId) {first : Nat} (h : first ≤ data.length)
    (h' : data.length + new.length ≤ first + 128) :
    chunk (data ++ new) first = chunk data first ++ new := by
  unfold chunk
  rw [List.drop_append_of_le_length h, List.take_of_length_le (by simp; omega),
    List.take_of_length_le (by simp; omega)]

theorem chunk_of_length_le {first : Nat} (h : data.length ≤ first) : chunk data first = [] := by
  unfold chunk
  rw [List.drop_eq_nil_of_le h, List.take_nil]

/-- Consecutive chunks put together. -/
theorem flatMap_chunk (data : List SectorId) (first count : Nat) :
    (List.range count).flatMap (fun k => chunk data (first + 128 * k)) =
      (data.drop first).take (128 * count) := by
  induction count with
  | zero => simp
  | succ count ih =>
    rw [List.range_succ, List.flatMap_append, ih, Nat.mul_succ, List.take_add, List.drop_drop]
    simp [chunk]

/-! ## What the content says -/

namespace Maps

theorem nonzero_data (h : r.Maps L data children) : ∀ id ∈ data, id ≠ 0 :=
  fun id hid => h.nonzero id (List.mem_append_left _ hid)

theorem nonzero_children (h : r.Maps L data children) : ∀ id ∈ children, id ≠ 0 :=
  fun id hid => h.nonzero id (List.mem_append_right _ hid)

theorem nonzero_chunk (h : r.Maps L data children) (first : Nat) :
    ∀ id ∈ chunk data first, id ≠ 0 :=
  fun id hid => h.nonzero_data id (mem_of_mem_chunk hid)

theorem length_le (h : r.Maps L data children) : data.length ≤ 16524 := by
  have := h.reach
  have := h.width
  omega

/-- The record's own entries are the first twelve. -/
theorem direct_eq (h : r.Maps L data children) {i : Nat} (hi : i < 12) :
    r.direct[i] = data.getD i 0 := by
  rw [h.direct, getElem_listed, List.getD_eq_getElem?_getD, List.getElem?_take_of_lt hi,
    List.getD_eq_getElem?_getD]

theorem mem_blocks_first (h : r.indirect ≠ 0) : r.indirect ∈ r.blocks children := by
  unfold blocks
  rw [if_neg h]
  exact List.mem_append_left _ (List.mem_singleton_self _)

theorem mem_blocks_top (h : r.doubleIndirect ≠ 0) : r.doubleIndirect ∈ r.blocks children := by
  unfold blocks
  rw [if_neg h]
  exact List.mem_append_right _ List.mem_cons_self

theorem mem_blocks_child (h : r.Maps L data children) {id : SectorId} (hid : id ∈ children) :
    id ∈ r.blocks children := by
  unfold blocks
  have top : r.doubleIndirect ≠ 0 := fun e => by
    rw [h.noTop e] at hid
    cases hid
  rw [if_neg top]
  exact List.mem_append_right _ (List.mem_cons_of_mem _ hid)

/-- Only the index blocks matter. -/
theorem congr (h : r.Maps L data children) (hL : ∀ s ∈ r.blocks children, L' s = L s) :
    r.Maps L' data children := by
  refine { h with first := fun e => ?_, top := fun e => ?_, child := fun k hk => ?_ }
  · rw [hL _ (mem_blocks_first e)]
    exact h.first e
  · rw [hL _ (mem_blocks_top e)]
    exact h.top e
  · rw [hL _ (h.mem_blocks_child (List.getElem_mem hk))]
    exact h.child k hk

end Maps

/-- The sectors below given index blocks, for the content `L`. -/
def belowIn (L : SectorId → Sector) (ids : List SectorId) : MappedSectors where
  data := ids.flatMap fun id => allocated (IndexBlock.ofSector (L id))
  index := ids

theorem belowIn_nil (L : SectorId → Sector) : belowIn L [] = ⟨[], []⟩ := rfl

theorem data_belowIn_singleton (L : SectorId → Sector) (id : SectorId) :
    (belowIn L [id]).data = allocated (IndexBlock.ofSector (L id)) := List.append_nil _

theorem index_belowIn (L : SectorId → Sector) (ids : List SectorId) :
    (belowIn L ids).index = ids := rfl

/-- The sectors of a record, for the content `L`. -/
def mappedIn (L : SectorId → Sector) (r : Record) : MappedSectors :=
  let first := belowIn L (if r.indirect = 0 then [] else [r.indirect])
  let top := belowIn L
    (if r.doubleIndirect = 0 then [] else allocated (IndexBlock.ofSector (L r.doubleIndirect)))
  { data := allocated r.direct ++ first.data ++ top.data
    index := first.index ++
      if r.doubleIndirect = 0 then [] else r.doubleIndirect :: top.index }

/-- The entry at a position, for the content `L`. Below an index block that is missing there are
none. -/
def entryIn (L : SectorId → Sector) (r : Record) : Position → SectorId
  | .direct i => r.direct.get i
  | .indirect i => if r.indirect = 0 then 0 else (L r.indirect).word32 i
  | .double outer inner =>
    if r.doubleIndirect = 0 then 0
    else if (L r.doubleIndirect).word32 outer = 0 then 0
    else (L ((L r.doubleIndirect).word32 outer)).word32 inner

theorem entryIn_indirect_none (none : r.indirect = 0) (i : Fin 128) :
    r.entryIn L (.indirect i) = 0 := if_pos none

theorem entryIn_indirect (some : r.indirect ≠ 0) (i : Fin 128) :
    r.entryIn L (.indirect i) = (L r.indirect).word32 i := if_neg some

theorem entryIn_double_none (none : r.doubleIndirect = 0) (outer inner : Fin 128) :
    r.entryIn L (.double outer inner) = 0 := if_pos none

theorem entryIn_double_childless (some : r.doubleIndirect ≠ 0) {outer : Fin 128}
    (none : (L r.doubleIndirect).word32 outer = 0) (inner : Fin 128) :
    r.entryIn L (.double outer inner) = 0 := (if_neg some).trans (if_pos none)

theorem entryIn_double (some : r.doubleIndirect ≠ 0) {outer : Fin 128}
    (child : (L r.doubleIndirect).word32 outer ≠ 0) (inner : Fin 128) :
    r.entryIn L (.double outer inner) = (L ((L r.doubleIndirect).word32 outer)).word32 inner :=
  (if_neg some).trans (if_neg child)

/-- The data sector for byte `offset`, for the content `L`. -/
def sectorIn (L : SectorId → Sector) (r : Record) (offset : Nat) : Option SectorId :=
  match locate offset with
  | none => none
  | some p => if r.entryIn L p = 0 then none else some (r.entryIn L p)

/-- The index blocks of a record are among the first `n` sectors, for the content `L`. -/
structure IndexWithin (n : Nat) (L : SectorId → Sector) (r : Record) : Prop where
  first : r.indirect ≠ 0 → r.indirect.toNat < n
  top : r.doubleIndirect ≠ 0 → r.doubleIndirect.toNat < n
  child : r.doubleIndirect ≠ 0 → ∀ i, (L r.doubleIndirect).word32 i ≠ 0 →
    ((L r.doubleIndirect).word32 i).toNat < n

/-- All sectors have numbers of 32 bits. -/
theorem indexWithin_words (L : SectorId → Sector) (r : Record) : r.IndexWithin wordRange32 L :=
  ⟨fun _ => UInt32.toNat_lt _, fun _ => UInt32.toNat_lt _, fun _ _ _ => UInt32.toNat_lt _⟩

theorem IndexWithin.below {n : Nat} (h : r.IndexWithin n L) (some : r.doubleIndirect ≠ 0) :
    ∀ id ∈ allocated (IndexBlock.ofSector (L r.doubleIndirect)), id.toNat < n := by
  intro id mem
  obtain ⟨present, i, rfl⟩ := IndexBlock.mem_allocated_ofSector mem
  exact h.child some i present

/-- The index blocks of a map are where the map says. -/
theorem Maps.indexWithin {n : Nat} (h : r.Maps L data children)
    (inside : ∀ s ∈ r.blocks children, s.toNat < n) : r.IndexWithin n L := by
  refine ⟨fun some => inside _ (mem_blocks_first some), fun some => inside _ (mem_blocks_top some),
    fun some i present => inside _ (h.mem_blocks_child ?_)⟩
  rw [(h.top some).2.2, IndexBlock.word32_sectorOf] at present ⊢
  have lt := (getD_ne_zero_iff h.nonzero_children).1 present
  rw [List.getD_eq_getElem _ _ lt]
  exact List.getElem_mem lt

/-- Each entry names the data sector with its number. -/
theorem Maps.entryIn_eq (h : r.Maps L data children) (p : Position) :
    r.entryIn L p = data.getD p.index 0 := by
  have missing : ∀ {i}, data.length ≤ i → 0 = data.getD i 0 := fun le =>
    (List.getD_eq_default _ _ le).symm
  cases p with
  | direct i => exact h.direct_eq i.isLt
  | indirect i =>
    by_cases none : r.indirect = 0
    · have short := h.noFirst none
      rw [entryIn_indirect_none none]
      exact missing (by show data.length ≤ 12 + i.val; omega)
    · rw [entryIn_indirect none, (h.first none).2, IndexBlock.word32_sectorOf,
        getD_chunk _ _ i.isLt]
      rfl
  | double outer inner =>
    have reach := h.reach
    by_cases none : r.doubleIndirect = 0
    · rw [h.noTop none, List.length_nil] at reach
      rw [entryIn_double_none none]
      exact missing (by show data.length ≤ 140 + 128 * outer.val + inner.val; omega)
    have entry : (L r.doubleIndirect).word32 outer = children.getD outer 0 := by
      rw [(h.top none).2.2, IndexBlock.word32_sectorOf]
    by_cases there : outer.val < children.length
    · have child := entry
      rw [List.getD_eq_getElem _ _ there] at child
      have present := (getD_ne_zero_iff h.nonzero_children).2 there
      rw [← entry] at present
      rw [entryIn_double none present, child, h.child _ there, IndexBlock.word32_sectorOf,
        getD_chunk _ _ inner.isLt]
      rfl
    · rw [List.getD_eq_default _ _ (Nat.not_lt.1 there)] at entry
      rw [entryIn_double_childless none entry]
      exact missing (by show data.length ≤ 140 + 128 * outer.val + inner.val; omega)

/-- The data sector for a byte is the one that the list has for it. -/
theorem Maps.sectorIn_eq (h : r.Maps L data children) (offset : Nat) :
    r.sectorIn L offset = data[offset / 512]? := by
  unfold sectorIn
  cases e : locate offset with
  | none =>
    have far : ¬ offset < maxFileSize := fun lt => by
      have := locate_isSome_iff.2 lt
      rw [e] at this
      cases this
    have e' : maxFileSize = 16524 * 512 := rfl
    have length := h.length_le
    exact (List.getElem?_eq_none (by omega)).symm
  | some p =>
    have index : p.index = offset / 512 := Position.index_of_ofIndex e
    simp only
    rw [h.entryIn_eq, ← index]
    by_cases lt : p.index < data.length
    · rw [if_neg ((getD_ne_zero_iff h.nonzero_data).2 lt), List.getElem?_eq_getElem lt,
        List.getD_eq_getElem _ _ lt]
    · rw [if_pos (List.getD_eq_default _ _ (Nat.not_lt.1 lt)),
        List.getElem?_eq_none (Nat.not_lt.1 lt)]

theorem Maps.allocated_chunk (h : r.Maps L data children) {id : SectorId} {first : Nat}
    (e : L id = IndexBlock.sectorOf (chunk data first)) :
    allocated (IndexBlock.ofSector (L id)) = chunk data first := by
  rw [e, IndexBlock.ofSector_sectorOf, allocated_listed (h.nonzero_chunk first)]
  rw [length_chunk]
  omega

theorem Maps.data_below (h : r.Maps L data children) :
    (belowIn L children).data = data.drop 140 := by
  have chunks : children.map (fun id => allocated (IndexBlock.ofSector (L id))) =
      (List.range children.length).map fun k => chunk data (140 + 128 * k) := by
    refine List.ext_getElem (by simp) fun k hk hk' => ?_
    rw [List.getElem_map, List.getElem_map, List.getElem_range]
    exact h.allocated_chunk (h.child k (by simpa using hk))
  have reach := h.reach
  rw [belowIn, List.flatMap_def, chunks, ← List.flatMap_def, flatMap_chunk]
  exact List.take_of_length_le (by rw [List.length_drop]; omega)

/-- The list of a record and its index blocks are what the content spells out. -/
theorem Maps.mappedIn_eq (h : r.Maps L data children) :
    r.mappedIn L = ⟨data, r.blocks children⟩ := by
  have direct : allocated r.direct = data.take 12 := by
    rw [h.direct, allocated_listed fun id hid => h.nonzero_data id (List.mem_of_mem_take hid)]
    rw [List.length_take]
    omega
  have first : (belowIn L (if r.indirect = 0 then [] else [r.indirect])).data = chunk data 12 := by
    by_cases e : r.indirect = 0
    · rw [if_pos e, chunk_of_length_le (h.noFirst e), belowIn_nil]
    · rw [if_neg e, data_belowIn_singleton, h.allocated_chunk (h.first e).2]
  have top : (if r.doubleIndirect = 0 then []
      else allocated (IndexBlock.ofSector (L r.doubleIndirect))) = children := by
    by_cases e : r.doubleIndirect = 0
    · rw [if_pos e, h.noTop e]
    · rw [if_neg e, (h.top e).2.2, IndexBlock.ofSector_sectorOf,
        allocated_listed h.nonzero_children h.width]
  have joined : data.take 12 ++ chunk data 12 ++ data.drop 140 = data := by
    have rest : (data.drop 12).drop 128 = data.drop 140 := List.drop_drop
    rw [chunk, List.append_assoc, ← rest, List.take_append_drop, List.take_append_drop]
  unfold mappedIn
  simp only
  rw [top, h.data_below, first, direct, joined, index_belowIn, index_belowIn, blocks]

/-! ## Reading the map -/

section Reading

variable {w : Prop} {n : Nat} {st : Storage}

theorem meets_load (h : st.Good w n []) {id : SectorId} (hs : id.toNat < n) :
    Meets (IndexBlock.load id) st
      (fun b st' => Storage.Same w n [] st st' ∧ b = IndexBlock.ofSector (st.logical id))
      (Storage.Breaks w n st) := by
  unfold IndexBlock.load
  refine (Storage.meets_readSector h hs).bind (fun b st₁ h₁ => ?_) fun _ _ h => h
  exact meets_pure ⟨h₁.1, by rw [h₁.2]⟩

theorem meets_entry (h : st.Good w n []) {id : SectorId} (hs : id.toNat < n) (i : Fin 128) :
    Meets (IndexBlock.entry id i) st
      (fun e st' => Storage.Same w n [] st st' ∧ e = (st.logical id).word32 i)
      (Storage.Breaks w n st) := by
  unfold IndexBlock.entry
  refine (Storage.meets_readSector h hs).bind (fun b st₁ h₁ => ?_) fun _ _ h => h
  exact meets_pure ⟨h₁.1, by rw [h₁.2]⟩

theorem meets_mappedBelow (h : st.Good w n []) {ids : List SectorId}
    (hs : ∀ id ∈ ids, id.toNat < n) :
    Meets (mappedBelow ids) st
      (fun m st' => Storage.Same w n [] st st' ∧ m = belowIn st.logical ids)
      (Storage.Breaks w n st) := by
  induction ids generalizing st with
  | nil => exact meets_pure ⟨h.same, rfl⟩
  | cons id rest ih =>
    unfold mappedBelow
    refine (meets_load h (hs id List.mem_cons_self)).bind (fun b st₁ h₁ => ?_) fun _ _ h => h
    obtain ⟨same, rfl⟩ := h₁
    refine (ih same.good fun id hid => hs id (List.mem_cons_of_mem _ hid)).bind
      (fun below st₂ h₂ => ?_) fun _ _ h => same.breaks h
    obtain ⟨same₂, rfl⟩ := h₂
    refine meets_pure ⟨same.trans same₂, ?_⟩
    rw [same.logical]
    rfl

theorem meets_mappedTop (h : st.Good w n []) {top : SectorId} (hs : top.toNat < n)
    (below : ∀ id ∈ allocated (IndexBlock.ofSector (st.logical top)), id.toNat < n) :
    Meets (mappedTop top) st
      (fun m st' => Storage.Same w n [] st st' ∧ ∀ below,
        below = belowIn st.logical (allocated (IndexBlock.ofSector (st.logical top))) →
        m = ⟨below.data, top :: below.index⟩)
      (Storage.Breaks w n st) := by
  unfold mappedTop
  refine (meets_load h hs).bind (fun b st₁ h₁ => ?_) fun _ _ h => h
  obtain ⟨same, rfl⟩ := h₁
  revert below
  generalize allocated (IndexBlock.ofSector (st.logical top)) = ids
  intro below
  refine (meets_mappedBelow same.good below).bind (fun below st₂ h₂ => ?_)
    fun _ _ h => same.breaks h
  obtain ⟨same₂, rfl⟩ := h₂
  refine meets_pure ⟨same.trans same₂, fun below e => ?_⟩
  rw [e, same.logical]

/-- Reading the whole map yields what the content spells out, wherever the entries lead. -/
theorem meets_mapped_within (h : st.Good w n []) (within : r.IndexWithin n st.logical) :
    Meets r.mapped st
      (fun m st' => Storage.Same w n [] st st' ∧ m = r.mappedIn st.logical)
      (Storage.Breaks w n st) := by
  have first : ∀ id ∈ (if r.indirect = 0 then [] else [r.indirect]), id.toNat < n := by
    intro id mem
    split at mem
    · cases mem
    · next some => exact List.mem_singleton.1 mem ▸ within.first some
  unfold mapped
  refine (meets_mappedBelow h first).bind (fun first st₁ h₁ => ?_) fun _ _ h => h
  obtain ⟨same, rfl⟩ := h₁
  unfold mappedIn
  by_cases e : r.doubleIndirect = 0
  · simp only [if_pos e]
    refine (meets_mappedBelow same.good fun id hid => (List.not_mem_nil hid).elim).bind
      (fun rest st₂ h₂ => ?_) fun _ _ h => same.breaks h
    obtain ⟨same₂, rfl⟩ := h₂
    refine meets_pure ⟨same.trans same₂, ?_⟩
    rw [same.logical]
    rfl
  · simp only [if_neg e]
    have below := within.below e
    rw [← same.logical] at below
    refine (meets_mappedTop same.good (within.top e) below).bind
      (fun rest st₂ h₂ => ?_) fun _ _ h => same.breaks h
    obtain ⟨same₂, rest⟩ := h₂
    refine meets_pure ⟨same.trans same₂, ?_⟩
    rw [same.logical] at rest
    rw [rest _ rfl]

theorem meets_mapped (h : st.Good w n []) (maps : r.Maps st.logical data children)
    (inside : ∀ s ∈ r.blocks children, s.toNat < n) :
    Meets r.mapped st
      (fun m st' => Storage.Same w n [] st st' ∧ m = r.mappedIn st.logical)
      (Storage.Breaks w n st) := meets_mapped_within h (maps.indexWithin inside)

/-- Looking up a byte finds the data sector that the content has for it, wherever the entries
lead. -/
theorem meets_lookup_within (h : st.Good w n []) (within : r.IndexWithin n st.logical)
    (offset : Nat) :
    Meets (r.lookup offset) st
      (fun x st' => Storage.Same w n [] st st' ∧ x = r.sectorIn st.logical offset)
      (Storage.Breaks w n st) := by
  unfold lookup sectorIn
  cases locate offset with
  | none => exact meets_pure ⟨h.same, rfl⟩
  | some p =>
    have found : ∀ st₁ (e : SectorId), Storage.Same w n [] st st₁ → e = r.entryIn st.logical p →
        Meets (do return if e = 0 then none else some e) st₁
          (fun x st' => Storage.Same w n [] st st' ∧
            x = if r.entryIn st.logical p = 0 then none else some (r.entryIn st.logical p))
          (Storage.Breaks w n st) := by
      rintro st₁ _ same rfl
      exact meets_pure ⟨same, rfl⟩
    cases p with
    | direct i => exact found st _ h.same rfl
    | indirect i =>
      by_cases none : r.indirect = 0
      · simp only [if_pos none]
        exact found st 0 h.same (entryIn_indirect_none none i).symm
      · simp only [if_neg none]
        refine (meets_entry h (within.first none) i).bind (fun x st₁ h₁ => ?_) fun _ _ h => h
        exact found st₁ x h₁.1 (h₁.2.trans (entryIn_indirect none i).symm)
    | double outer inner =>
      by_cases none : r.doubleIndirect = 0
      · simp only [if_pos none]
        exact found st 0 h.same (entryIn_double_none none outer inner).symm
      · simp only [if_neg none]
        refine (meets_entry h (within.top none) outer).bind (fun child st₁ h₁ => ?_) fun _ _ h => h
        obtain ⟨same, rfl⟩ := h₁
        by_cases none' : (st.logical r.doubleIndirect).word32 outer = 0
        · rw [if_pos none', pure_bind]
          exact found st₁ 0 same (entryIn_double_childless none none' inner).symm
        · rw [if_neg none']
          refine (meets_entry same.good (within.child none _ none') inner).bind
            (fun x st₂ h₂ => ?_) fun _ _ h => same.breaks h
          refine found st₂ x (same.trans h₂.1) ?_
          rw [h₂.2, same.logical, entryIn_double none none']

/-- Looking up a byte finds the data sector that the list has for it. -/
theorem meets_lookup (h : st.Good w n []) (maps : r.Maps st.logical data children)
    (inside : ∀ s ∈ r.blocks children, s.toNat < n) (offset : Nat) :
    Meets (r.lookup offset) st
      (fun x st' => Storage.Same w n [] st st' ∧ x = data[offset / 512]?)
      (Storage.Breaks w n st) := by
  rw [← maps.sectorIn_eq]
  exact meets_lookup_within h (maps.indexWithin inside) offset

end Reading

end Record

end SectorVolume
