import Mathlib.Data.List.Perm.Basic
import SectorVolume.Mapping.Populate
import SectorVolume.Proofs.Mapping.Ensuring

/-!
# Hanging in all sectors of a file

`Mapping.fill` makes a tree of a given number of data sectors out of sectors taken beforehand: the
data sectors and the index blocks of the tree are exactly these.
-/

namespace SectorVolume

open SectorVolume.Action

/-! ## Rows of index blocks -/

namespace Mapping

theorem supply_eq {σ : Type} {count : Nat} {ids : List SectorId} (enough : count ≤ ids.length) :
    supply count ids = (pure (ids.take count) : Action σ (List SectorId)) := by
  unfold supply
  rw [if_neg (Nat.not_lt.2 enough)]

/-- The first `count` index blocks for `remaining` data sectors are made out of `ids`, in content
`L`: the blocks, and the data sectors below them. -/
structure Filled (ids : List SectorId) (remaining count : Nat) (blocks data : List SectorId)
    (L : SectorId → Sector) : Prop where
  many : blocks.length = count
  room : data.length = min remaining (128 * count)
  head : 0 < count → blocks.head? = ids.head?
  perm : (blocks ++ data).Perm (ids.take (count + min remaining (128 * count)))
  content : ∀ (k : Nat) (hk : k < blocks.length),
    L blocks[k] = IndexBlock.sectorOf (Record.chunk data (128 * k))

theorem Filled.mem_blocks {ids blocks data : List SectorId} {remaining count : Nat}
    {L : SectorId → Sector} (h : Filled ids remaining count blocks data L) {id : SectorId}
    (hid : id ∈ blocks) : id ∈ ids :=
  List.mem_of_mem_take (h.perm.subset (List.mem_append_left _ hid))

theorem chunk_zero_append {entries data : List SectorId} (le : entries.length ≤ 128)
    (h : entries.length = 128 ∨ data = []) : Record.chunk (entries ++ data) 0 = entries := by
  unfold Record.chunk
  rw [List.drop_zero]
  rcases h with h | rfl
  · exact List.take_left' h
  · rw [List.append_nil]
    exact List.take_of_length_le le

theorem chunk_succ_append {entries data : List SectorId} (h : entries.length = 128) (k : Nat) :
    Record.chunk (entries ++ data) (128 * (k + 1)) = Record.chunk data (128 * k) := by
  unfold Record.chunk
  rw [Nat.mul_succ, Nat.add_comm, ← h, ← List.drop_drop, List.drop_left]

/-- The first block is filled, and after it the others. -/
theorem Filled.cons {ids blocks data : List SectorId} {remaining count : Nat} {block : SectorId}
    {L : SectorId → Sector}
    (h : Filled (ids.drop (ids.take (min remaining 128)).length) (remaining - 128) count blocks
      data L)
    (le : 128 * (count + 1) < remaining + 128)
    (enough : count + 1 + min remaining (128 * (count + 1)) ≤ ids.length + 1)
    (first : L block = IndexBlock.sectorOf (ids.take (min remaining 128))) :
    Filled (block :: ids) remaining (count + 1) (block :: blocks)
      (ids.take (min remaining 128) ++ data) L := by
  have length : (ids.take (min remaining 128)).length = min remaining 128 := by
    rw [List.length_take]
    omega
  have total : (ids.take (min remaining 128) ++ data).length =
      min remaining 128 + min (remaining - 128) (128 * count) := by
    rw [List.length_append, length, h.room]
  have last : (ids.take (min remaining 128)).length = 128 ∨ data = [] := by
    by_cases e : 128 ≤ remaining
    · exact .inl (by omega)
    · exact .inr (List.eq_nil_of_length_eq_zero (by rw [h.room]; omega))
  refine ⟨congrArg (· + 1) h.many, by omega, fun _ => rfl, ?_, fun k hk => ?_⟩
  · have split : ids.take (count + min remaining (128 * (count + 1))) =
        ids.take (min remaining 128) ++
          (ids.drop (min remaining 128)).take (count + min (remaining - 128) (128 * count)) := by
      rw [← List.take_add]
      exact congrArg ids.take (by omega)
    have perm := h.perm
    rw [length] at perm
    rw [show count + 1 + min remaining (128 * (count + 1)) =
      count + min remaining (128 * (count + 1)) + 1 by omega, List.take_succ_cons, split,
      List.cons_append]
    refine List.Perm.cons block (List.perm_iff_count.2 fun a => ?_)
    have counts := perm.count_eq a
    simp only [List.count_append] at counts ⊢
    omega
  · cases k with
    | zero =>
      rw [Nat.mul_zero, chunk_zero_append (by omega) last]
      exact first
    | succ k =>
      have hk' : k < blocks.length := Nat.lt_of_succ_lt_succ hk
      have full : (ids.take (min remaining 128)).length = 128 := by
        have := h.many
        omega
      rw [chunk_succ_append full, List.getElem_cons_succ]
      exact h.content k hk'

theorem meets_modifyRecord {m : Mapping} {f : Record → Record} {α : Type} {rest : Action Mapping α}
    {D : α → Mapping → Prop} {F : Fault → Mapping → Prop}
    (h : Meets rest ⟨m.space, f m.record⟩ D F) :
    Meets (do modifyRecord f; rest) m D F := meets_modify h

variable [Promise]

theorem meets_fillBlocks {sp : Space} (h : sp.Sound) {ids : List SectorId} (remaining count : Nat)
    (nodup : ids.Nodup) (held : ∀ id ∈ ids, sp.stock.Held id)
    (le : 128 * count < remaining + 128)
    (enough : count + min remaining (128 * count) ≤ ids.length) :
    Meets (Space.onStorage (fillBlocks remaining count ids)) sp
      (fun r sp' => sp'.Sound ∧ Stock.Took (· ∈ ids) [] sp.stock sp'.stock ∧
        Filled ids remaining count r.1 r.2 sp'.stock.content)
      (sp.Spoils ids) := by
  induction count generalizing sp ids remaining with
  | zero =>
    refine meets_pure ⟨h, .refl _, rfl, by simp, fun lt => absurd lt (Nat.lt_irrefl 0), ?_, nofun⟩
    simp
  | succ count ih =>
    obtain _ | ⟨block, ids⟩ := ids
    · exact absurd enough (by simp only [List.length_nil]; omega)
    · obtain ⟨notin, nodup'⟩ := List.nodup_cons.1 nodup
      have length : (ids.take (min remaining 128)).length = min remaining 128 := by
        rw [List.length_take]
        simp only [List.length_cons] at enough
        omega
      have heldBlock := held block List.mem_cons_self
      simp only [List.length_cons] at enough
      have index : indexCount = 128 := rfl
      unfold fillBlocks
      rw [index, supply_eq (by omega), pure_bind, Space.onStorage_bind, ofList_eq]
      refine (Space.meets_save h heldBlock.1 (ids.take (min remaining 128))).bind
        (fun _ sp₁ h₁ => ?_) fun c sp₁ h₁ => ?_
      · have took : Stock.Took (· ∈ block :: ids) [] sp.stock sp₁.stock :=
          h₁.took_put List.mem_cons_self
        rw [Space.onStorage_bind]
        refine (ih h₁.sound (remaining - 128) (nodup'.sublist (List.drop_sublist _ _)) (fun id hid => ?_)
          (by omega) ?_).bind (fun r sp₂ h₂ => ?_) fun c sp₂ h₂ => ?_
        · exact took.held (held id (List.mem_cons_of_mem _ (List.mem_of_mem_drop hid)))
        · rw [List.length_drop, length]
          omega
        · obtain ⟨sound, took₂, filled⟩ := h₂
          have sub : ∀ id ∈ r.1, id ∈ ids := fun id hid =>
            List.mem_of_mem_drop (filled.mem_blocks hid)
          refine meets_pure ⟨sound, took.nil_trans took₂ fun _ _ hs =>
            List.mem_cons_of_mem _ (List.mem_of_mem_drop hs),
            filled.cons le enough ?_⟩
          rw [took₂.content (took.held heldBlock) fun hs => notin (List.mem_of_mem_drop hs),
            h₁.content, Function.update_self]
        · exact h₂.after took fun _ hs => List.mem_cons_of_mem _ (List.mem_of_mem_drop hs)
      · exact h₁.spoils

/-! ## The whole map -/

end Mapping

namespace Record

/-- The map of a record whose own entries are all used. -/
theorem Maps.of_parts {L : SectorId → Sector} {r : Record}
    {direct first rest children : List SectorId}
    (nonzero : ∀ id ∈ (direct ++ (first ++ rest)) ++ children, id ≠ 0)
    (own : r.direct = listed 12 direct) (twelve : direct.length = 12)
    (indirect : r.indirect ≠ 0) (block : L r.indirect = IndexBlock.sectorOf first)
    (small : first.length ≤ 128) (full : first.length = 128 ∨ rest = [])
    (noTop : r.doubleIndirect = 0 → children = [])
    (top : r.doubleIndirect ≠ 0 →
      first.length = 128 ∧ L r.doubleIndirect = IndexBlock.sectorOf children)
    (reach : rest.length ≤ 128 * children.length)
    (begun : ∀ k, k < children.length → first.length = 128 ∧ 128 * k ≤ rest.length)
    (width : children.length ≤ 128)
    (child : ∀ (k : Nat) (hk : k < children.length),
      L children[k] = IndexBlock.sectorOf (chunk rest (128 * k))) :
    r.Maps L (direct ++ (first ++ rest)) children := by
  have length : (direct ++ (first ++ rest)).length = 12 + (first.length + rest.length) := by
    rw [List.length_append, List.length_append, twelve]
  have second : chunk (direct ++ (first ++ rest)) 12 = first := by
    have e := Mapping.chunk_zero_append small full
    unfold chunk at e ⊢
    rw [List.drop_zero] at e
    rw [List.drop_left' twelve, e]
  have third : ∀ k, k < children.length →
      chunk (direct ++ (first ++ rest)) (140 + 128 * k) = chunk rest (128 * k) := by
    intro k hk
    unfold chunk
    rw [show 140 + 128 * k = 12 + (128 + 128 * k) by omega, ← List.drop_drop,
      List.drop_left' twelve, ← List.drop_drop, List.drop_left' (begun k hk).1]
  refine ⟨nonzero, ?_, fun e => absurd e indirect, fun _ => ⟨by omega, ?_⟩, noTop, fun e => ?_,
    by omega, fun k hk => ?_, width, fun k hk => ?_⟩
  · rw [own, List.take_left' twelve]
  · rw [second]
    exact block
  · have := top e
    exact ⟨indirect, by omega, this.2⟩
  · have := begun k hk
    omega
  · rw [third k hk]
    exact child k hk

end Record

namespace Mapping

variable [Promise]

/-- The sectors `ids` have become the tree `t`, whose data sectors hold zeros. -/
structure Fills (ids : List SectorId) (m : Mapping) (t : Tree) (m' : Mapping) : Prop where
  sound : m'.Sound t
  took : Stock.Took (· ∈ ids) [] m.space.stock m'.space.stock
  perm : t.sectors.Perm ids
  zero : ∀ id ∈ t.data, m'.space.stock.content id = Sector.zero
  rest : m'.record.withoutSectors = m.record.withoutSectors

/-- Once the index blocks are written the data sectors are filled with zeros. -/
theorem meets_zeroData (sp : Space) {m : Mapping} {ids : List SectorId} {t : Tree}
    (h : m.space.Sound) (took : Stock.Took (· ∈ ids) [] sp.stock m.space.stock)
    (record : t.record = m.record)
    (maps : t.record.Maps m.space.stock.content t.data t.children)
    (nodup : ids.Nodup) (held : ∀ id ∈ ids, sp.stock.Held id)
    (perm : t.sectors.Perm ids) {r : Record} (rest : m.record.withoutSectors = r.withoutSectors) :
    Meets (onSpace (Growth.zeroAll t.data)) m (fun _ m' => Fills ids ⟨sp, r⟩ t m')
      fun c m' => sp.Spoils ids c m'.space := by
  have nodup' : t.sectors.Nodup := perm.nodup_iff.2 nodup
  have held' : ∀ id ∈ t.sectors, m.space.stock.Held id :=
    fun id hid => took.held (held id (perm.mem_iff.1 hid))
  have sub : t.data ⊆ ids := fun id hid => perm.mem_iff.1 (Tree.mem_sectors_data hid)
  have tree : t.Sound m.space.stock := ⟨maps, nodup', held'⟩
  refine (meets_onSpace (Space.meets_zeroAll h fun id hid =>
    held' id (Tree.mem_sectors_data hid))).mono (fun _ m₁ h₁ => ?_) fun c m₁ h₁ => ?_
  · obtain ⟨⟨sound, took₁, zero⟩, record₁⟩ := h₁
    refine ⟨⟨sound, record.trans record₁.symm, tree.frame took₁ fun s hs hd =>
      tree.not_mem_blocks hd hs⟩, took.nil_trans took₁ fun _ _ hs => sub hs, perm, zero, ?_⟩
    rw [record₁]
    exact rest
  · exact h₁.1.1.after took sub

/-- The top block and what is below it are filled, and then all data sectors. -/
theorem meets_fillTop {sp sp₁ : Space} {r : Record} (r₁ : Record)
    {ids ids' direct first : List SectorId} {remaining count : Nat} (h : sp₁.Sound)
    (took : Stock.Took (· ∈ ids) [] sp.stock sp₁.stock)
    (nodup : ids.Nodup) (held : ∀ id ∈ ids, sp.stock.Held id)
    (perm : ((direct ++ first) ++ (r₁.indirect :: r₁.doubleIndirect :: ids')).Perm ids)
    (own : r₁.direct = listed 12 direct) (twelve : direct.length = 12) (full : first.length = 128)
    (content : sp₁.stock.content r₁.indirect = IndexBlock.sectorOf first)
    (length : ids'.length = count + remaining) (ceil : count = (remaining + 127) / 128)
    (le : remaining ≤ 16384) (rest : r₁.withoutSectors = r.withoutSectors) :
    Meets (do
      let (blocks, data) ← onStorage (fillBlocks remaining count ids')
      onStorage (IndexBlock.save r₁.doubleIndirect (IndexBlock.ofList blocks))
      onSpace (Growth.zeroAll (direct ++ first ++ data))) ⟨sp₁, r₁⟩
      (fun _ m' => ∃ t, Fills ids ⟨sp, r⟩ t m' ∧ t.data.length = 140 + remaining)
      (fun c m' => sp.Spoils ids c m'.space) := by
  have nodup' := perm.nodup_iff.2 nodup
  obtain ⟨firstFresh, nodup''⟩ := List.nodup_cons.1 nodup'.of_append_right
  obtain ⟨topFresh, nodup₂⟩ := List.nodup_cons.1 nodup''
  have mem : ∀ id ∈ r₁.indirect :: r₁.doubleIndirect :: ids', id ∈ ids := fun id hid =>
    perm.subset (List.mem_append_right _ hid)
  have memFirst := mem _ List.mem_cons_self
  have memTop := mem _ (List.mem_cons_of_mem _ List.mem_cons_self)
  have sub : ids' ⊆ ids := fun id hid =>
    mem id (List.mem_cons_of_mem _ (List.mem_cons_of_mem _ hid))
  have held₁ : ∀ id ∈ ids, sp₁.stock.Held id := fun id hid => took.held (held id hid)
  refine (meets_onSpace (m := ⟨sp₁, r₁⟩) (meets_fillBlocks h remaining count nodup₂
    (fun id hid => held₁ id (sub hid)) (by omega) (by omega))).bind (fun p m₂ h₂ => ?_)
      fun c m₂ h₂ => h₂.1.after took sub
  obtain ⟨blocks, data⟩ := p
  obtain ⟨sp₂, r₂⟩ := m₂
  obtain ⟨⟨sound₂, took₂, filled⟩, rfl⟩ := h₂
  have many : blocks.length = count := filled.many
  have room : data.length = min remaining (128 * count) := filled.room
  have held₂ : ∀ id ∈ ids, sp₂.stock.Held id := fun id hid => took₂.held (held₁ id hid)
  have tookTo₂ : Stock.Took (· ∈ ids) [] sp.stock sp₂.stock :=
    took.nil_trans took₂ fun _ _ hs => sub hs
  simp only
  rw [ofList_eq]
  refine (meets_onSpace (m := ⟨sp₂, r₂⟩) (Space.meets_save sound₂ (held₂ _ memTop).1
    blocks)).bind (fun _ m₃ h₃ => ?_) fun c m₃ h₃ => Space.Spoils.after tookTo₂ h₃.1.spoils
      (List.Subset.refl ids)
  obtain ⟨sp₃, r₃⟩ := m₃
  obtain ⟨saved, rfl⟩ := h₃
  have tookTo₃ : Stock.Took (· ∈ ids) [] sp.stock sp₃.stock :=
    tookTo₂.nil_trans (saved.took_put memTop) fun _ _ hs => hs
  have after : ∀ id, id ≠ r₃.doubleIndirect → sp₃.stock.content id = sp₂.stock.content id := by
    intro id ne
    rw [saved.content]
    exact Function.update_of_ne ne ..
  have permTo : ((direct ++ (first ++ data)) ++ (r₃.indirect :: r₃.doubleIndirect :: blocks)).Perm
      ids := by
    have permBelow := filled.perm
    rw [List.take_of_length_le (by omega)] at permBelow
    refine (List.perm_iff_count.2 fun a => ?_ : List.Perm _ _).trans perm
    have := permBelow.count_eq a
    simp only [List.count_append, List.count_cons] at this ⊢
    omega
  have nonzero : ∀ id ∈ ids, id ≠ 0 := fun id hid => (held id hid).1.1
  have maps : r₃.Maps sp₃.stock.content (direct ++ (first ++ data)) blocks := by
    refine .of_parts (fun id hid => nonzero id (permTo.subset ?_)) own twelve
      (nonzero _ memFirst) ?_ (by omega) (.inl full) (fun e => absurd e (nonzero _ memTop))
      (fun _ => ⟨full, ?_⟩) (by omega) (fun k hk => ⟨full, by omega⟩) (by omega) fun k hk => ?_
    · rcases List.mem_append.1 hid with hid | hid
      · exact List.mem_append_left _ hid
      · exact List.mem_append_right _ (List.mem_cons_of_mem _ (List.mem_cons_of_mem _ hid))
    · rw [after _ fun e => firstFresh (e ▸ List.mem_cons_self),
        took₂.content (held₁ _ memFirst) fun hid => firstFresh (List.mem_cons_of_mem _ hid)]
      exact content
    · rw [saved.content]
      exact Function.update_self ..
    · rw [after _ fun e => topFresh (e ▸ filled.mem_blocks (List.getElem_mem hk))]
      exact filled.content k hk
  rw [List.append_assoc]
  refine (meets_zeroData sp (m := ⟨sp₃, r₃⟩) (t := ⟨r₃, direct ++ (first ++ data), blocks⟩)
    saved.sound tookTo₃ rfl maps nodup held ?_ (r := r) rest).mono (fun _ m₄ h₄ => ⟨_, h₄, ?_⟩)
    fun _ _ h => h
  · unfold Tree.sectors Tree.blocks Record.blocks
    simp only
    rw [if_neg (nonzero _ memFirst), if_neg (nonzero _ memTop)]
    exact permTo
  · show (direct ++ (first ++ data)).length = 140 + remaining
    rw [List.length_append, List.length_append]
    omega

/-- Sectors that were taken for a file are hung into a record without sectors. -/
theorem meets_fill {m : Mapping} (h : m.space.Sound) {data : Nat} (le : data ≤ 16524)
    {ids : List SectorId} (nodup : ids.Nodup) (held : ∀ id ∈ ids, m.space.stock.Held id)
    (length : ids.length = totalSectors data) (bare : m.record.withoutSectors = m.record) :
    Meets (fill data ids) m
      (fun _ m' => ∃ t, Fills ids m t m' ∧ t.data.length = data)
      (fun c m' => m.space.Spoils ids c m'.space) := by
  obtain ⟨sp, r⟩ := m
  replace h : sp.Sound := h
  replace held : ∀ id ∈ ids, sp.stock.Held id := held
  have direct₀ : r.direct = listed 12 [] := by
    rw [listed_nil, ← (congrArg Record.direct bare : _ = r.direct)]
    rfl
  have indirect₀ : r.indirect = 0 := (congrArg Record.indirect bare).symm
  have top₀ : r.doubleIndirect = 0 := (congrArg Record.doubleIndirect bare).symm
  have own : ∀ direct : List SectorId, Growth.setFrom r.direct 0 direct = listed 12 direct := by
    intro direct
    rw [direct₀]
    exact setFrom_listed [] direct
  have nonzero : ∀ id ∈ ids, id ≠ 0 := fun id hid => (held id hid).1.1
  have e₁ : directCount = 12 := rfl
  have e₂ : directBound = 12 := rfl
  have e₃ : indirectBound = 140 := rfl
  have e₄ : indexCount = 128 := rfl
  unfold totalSectors indexSectors at length
  unfold fill
  rw [e₂, e₃, e₄] at length
  have enough : min data 12 ≤ ids.length := by split at length <;> omega
  have direct : (ids.take (min data 12)).length = min data 12 := by
    rw [List.length_take, Nat.min_eq_left enough]
  rw [e₁, e₂, e₃, e₄, supply_eq enough, pure_bind, direct]
  refine meets_modifyRecord ?_
  simp only [own]
  by_cases few : data ≤ 12
  · rw [if_neg (by omega), if_neg (by omega)] at length
    rw [if_pos few]
    have all : ids.take (min data 12) = ids := List.take_of_length_le (by omega)
    rw [all]
    have empty : (⟨r, [], []⟩ : Tree).Sound sp.stock := Tree.sound_empty bare
    have maps : ({ r with direct := listed 12 ([] ++ ids) } : Record).Maps sp.stock.content
        ([] ++ ids) [] :=
      empty.maps.append_direct indirect₀ nonzero (by rw [List.length_nil]; omega)
    rw [List.nil_append] at maps
    refine (meets_zeroData sp (m := ⟨sp, { r with direct := listed 12 ids }⟩)
      (t := ⟨{ r with direct := listed 12 ids }, ids, []⟩) h
      (.refl _) rfl maps nodup held ?_ (r := r) rfl).mono (fun _ m₁ h₁ => ⟨_, h₁, ?_⟩) fun _ _ h => h
    · unfold Tree.sectors Tree.blocks Record.blocks
      simp only
      rw [if_pos indirect₀, if_pos top₀, List.append_nil, List.append_nil]
    · show ids.length = data
      omega
  · rw [if_pos (by omega)] at length
    rw [if_neg few, Nat.min_eq_right (by omega)]
    have split : ids.take 12 ++ ids.drop 12 = ids := List.take_append_drop 12 ids
    have twelve : (ids.take 12).length = 12 := by
      rw [List.length_take]
      omega
    have length₁ : (ids.drop 12).length = ids.length - 12 := List.length_drop
    revert split twelve length₁
    generalize ids.take 12 = direct
    generalize ids.drop 12 = ids₁
    intro split twelve length₁
    have sub₁ : ids₁ ⊆ ids := fun id hid => by
      rw [← split]
      exact List.mem_append_right _ hid
    have nodup₁ : ids₁.Nodup := by
      rw [← split] at nodup
      exact nodup.of_append_right
    refine meets_modifyRecord ?_
    simp only
    refine (meets_onSpace (m := ⟨sp, _⟩) (meets_fillBlocks h (data - 12) 1 nodup₁
      (fun id hid => held id (sub₁ hid)) (by omega) (by omega))).bind (fun p m₁ h₁ => ?_)
        fun c m₁ h₁ => h₁.1.after (.refl _) sub₁
    obtain ⟨blocks, first⟩ := p
    obtain ⟨sp₁, r₁⟩ := m₁
    obtain ⟨⟨sound₁, took₁, filled₁⟩, record₁⟩ := h₁
    obtain rfl : r₁ = { r with direct := listed 12 direct, indirect := ids₁.headD 0 } := record₁
    obtain ⟨block, rfl⟩ := List.length_eq_one_iff.1 filled₁.many
    have room₁ : first.length = min (data - 12) (128 * 1) := filled₁.room
    have head₁ : ids₁.headD 0 = block := by
      rw [List.headD_eq_head?_getD, ← filled₁.head Nat.one_pos]
      rfl
    have content₁ : sp₁.stock.content block = IndexBlock.sectorOf first := by
      have : sp₁.stock.content block = IndexBlock.sectorOf (Record.chunk first 0) :=
        filled₁.content 0 Nat.one_pos
      unfold Record.chunk at this
      rw [List.drop_zero, List.take_of_length_le (by omega)] at this
      exact this
    have took : Stock.Took (· ∈ ids) [] sp.stock sp₁.stock := took₁.mono fun s _ hs => sub₁ hs
    have perm₁ : ([block] ++ first).Perm (ids₁.take (1 + first.length)) := by
      rw [room₁]
      exact filled₁.perm
    have blockMem : block ∈ ids₁ := filled₁.mem_blocks (List.mem_singleton_self _)
    have blockNonzero := nonzero block (sub₁ blockMem)
    rw [head₁]
    simp only
    by_cases middle : data ≤ 140
    · rw [if_neg (by omega)] at length
      rw [if_pos middle]
      have perm : ((direct ++ (first ++ [])) ++ ([block] ++ [])).Perm ids := by
        rw [← split]
        rw [List.take_of_length_le (by omega)] at perm₁
        refine List.perm_iff_count.2 fun a => ?_
        have := perm₁.count_eq a
        simp only [List.count_append, List.count_nil] at this ⊢
        omega
      have maps : ({ r with direct := listed 12 direct, indirect := block } : Record).Maps
          sp₁.stock.content (direct ++ (first ++ [])) [] :=
        .of_parts (fun id hid => nonzero id (perm.subset (List.mem_append_left _ (by simpa using hid))))
          rfl twelve blockNonzero content₁ (by omega) (.inr rfl) (fun _ => rfl)
          (fun e => absurd top₀ e) (Nat.zero_le _) nofun (Nat.zero_le _) nofun
      rw [List.append_nil] at maps perm
      refine (meets_zeroData sp
        (m := ⟨sp₁, { r with direct := listed 12 direct, indirect := block }⟩)
        (t := ⟨{ r with direct := listed 12 direct, indirect := block }, direct ++ first, []⟩)
        sound₁ took rfl maps nodup held ?_ (r := r) rfl).mono (fun _ m₂ h₂ => ⟨_, h₂, ?_⟩)
        fun _ _ h => h
      · unfold Tree.sectors Tree.blocks Record.blocks
        simp only
        rw [if_neg blockNonzero, if_pos top₀]
        exact perm
      · show (direct ++ first).length = data
        rw [List.length_append]
        omega
    · rw [if_pos (by omega)] at length
      rw [if_neg middle]
      have rest : ids₁.drop (1 + first.length) =
          (ids₁.drop (1 + first.length)).headD 0 :: (ids₁.drop (1 + first.length)).drop 1 := by
        obtain ⟨top, tail, e⟩ := List.exists_cons_of_length_pos (l := ids₁.drop (1 + first.length))
          (by rw [List.length_drop]; omega)
        rw [e]
        rfl
      have length₂ : ((ids₁.drop (1 + first.length)).drop 1).length =
          ids₁.length - (1 + first.length) - 1 := by
        rw [List.length_drop, List.length_drop]
      have perm : ((direct ++ first) ++ (block :: (ids₁.drop (1 + first.length)).headD 0 ::
          (ids₁.drop (1 + first.length)).drop 1)).Perm ids := by
        rw [← rest, ← split, ← List.take_append_drop (1 + first.length) ids₁, List.drop_left']
        · refine List.perm_iff_count.2 fun a => ?_
          have := perm₁.count_eq a
          simp only [List.count_append, List.count_cons, List.count_nil] at this ⊢
          omega
        · rw [List.length_take]
          omega
      have full : first.length = 128 := by omega
      refine meets_modifyRecord ?_
      refine (meets_fillTop (r := r) { r with
          direct := listed 12 direct
          indirect := block
          doubleIndirect := (ids₁.drop (1 + first.length)).headD 0 }
        sound₁ took nodup held perm rfl twelve full content₁ ?_ rfl (by omega) rfl).mono
        (fun _ m₂ h₂ => ?_) fun _ _ h => h
      · omega
      · obtain ⟨t, fills, e⟩ := h₂
        exact ⟨t, fills, by omega⟩

end Mapping

end SectorVolume
