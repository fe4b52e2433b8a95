import SectorVolume.Proofs.Mapping.Maps

/-!
# How a map gets longer

The ways in which a map grows by one step: entries are added behind the end of the tier that is
being filled, or the first block of the next tier is hung in while it is still empty. Each step says
which sector has to hold what afterwards.
-/

namespace SectorVolume

namespace Record

namespace Maps

variable {L L' : SectorId → Sector} {r : Record} {data children new : List SectorId}

/-- Without a first index block there is nothing beyond the record's own entries. -/
theorem of_noFirst (h : r.Maps L data children) (e : r.indirect = 0) :
    r.doubleIndirect = 0 ∧ children = [] := by
  have top : r.doubleIndirect = 0 := by
    by_contra e'
    exact (h.top e').1 e
  exact ⟨top, h.noTop top⟩

theorem nonzero_append (h : r.Maps L data children) (hn : ∀ id ∈ new, id ≠ 0) :
    ∀ id ∈ (data ++ new) ++ children, id ≠ 0 := by
  intro id hid
  rcases List.mem_append.1 hid with hid | hid
  · rcases List.mem_append.1 hid with hid | hid
    · exact h.nonzero_data id hid
    · exact hn id hid
  · exact h.nonzero_children id hid

/-- Entries are added to those of the record itself. -/
theorem append_direct (h : r.Maps L data children) (e : r.indirect = 0)
    (hn : ∀ id ∈ new, id ≠ 0) (le : data.length + new.length ≤ 12) :
    ({ r with direct := listed 12 (data ++ new) } : Record).Maps L' (data ++ new) children := by
  obtain ⟨noTop, rfl⟩ := h.of_noFirst e
  have length : (data ++ new).length ≤ 12 := by
    rw [List.length_append]
    exact le
  refine ⟨h.nonzero_append hn, ?_, fun _ => length, fun e' => absurd e e', fun _ => rfl,
    fun e' => absurd noTop e', Nat.le_trans length (by decide), nofun, Nat.zero_le _, nofun⟩
  rw [List.take_of_length_le length]

/-- The first index block is begun. -/
theorem begin_first (h : r.Maps L data children) (e : r.indirect = 0) (full : data.length = 12)
    {s : SectorId} (hs : s ≠ 0) (hL : L' s = IndexBlock.sectorOf []) :
    ({ r with indirect := s } : Record).Maps L' data children := by
  obtain ⟨noTop, rfl⟩ := h.of_noFirst e
  refine ⟨h.nonzero, h.direct, fun e' => absurd e' hs, fun _ => ⟨Nat.le_of_eq full.symm, ?_⟩,
    fun _ => rfl, fun e' => absurd noTop e', h.reach, nofun, Nat.zero_le _, nofun⟩
  rw [chunk_of_length_le (Nat.le_of_eq full)]
  exact hL

/-- The children of the top block lie behind the end of the first two tiers. -/
theorem length_eq_of_child (h : r.Maps L data children) (le : data.length + new.length ≤ 140)
    {k : Nat} (hk : k < children.length) : new = [] := by
  have := h.full k hk
  exact List.eq_nil_of_length_eq_zero (by omega)

/-- Entries are added to the first index block. -/
theorem append_first (h : r.Maps L data children) (e : r.indirect ≠ 0)
    (hn : ∀ id ∈ new, id ≠ 0) (le : data.length + new.length ≤ 140)
    (hL : L' r.indirect = IndexBlock.sectorOf (chunk data 12 ++ new))
    (others : ∀ s ∈ r.blocks children, s ≠ r.indirect → L' s = L s)
    (nodup : (r.blocks children).Nodup) : r.Maps L' (data ++ new) children := by
  obtain ⟨start, -⟩ := h.first e
  have length : (data ++ new).length = data.length + new.length := List.length_append
  have front : r.indirect ∉ (if r.doubleIndirect = 0 then [] else r.doubleIndirect :: children) := by
    unfold blocks at nodup
    rw [if_neg e] at nodup
    exact (List.nodup_cons.1 nodup).1
  have reach := h.reach
  refine ⟨h.nonzero_append hn, ?_, fun e' => absurd e' e, fun _ => ⟨by omega, ?_⟩, h.noTop,
    fun e' => ⟨e, ?_, ?_⟩, by omega, fun k hk => ?_, h.width, fun k hk => ?_⟩
  · rw [h.direct, List.take_append_of_le_length start]
  · rw [chunk_append new start (by omega)]
    exact hL
  · have := (h.top e').2.1
    omega
  · rw [others _ (mem_blocks_top e') fun e'' => front ?_]
    · exact (h.top e').2.2
    · rw [if_neg e', ← e'']
      exact List.mem_cons_self
  · have := h.full k hk
    omega
  · rw [others _ (h.mem_blocks_child (List.getElem_mem hk)) fun e'' => front ?_, h.child k hk,
      h.length_eq_of_child le hk, List.append_nil]
    have top : r.doubleIndirect ≠ 0 := fun e' => by
      rw [h.noTop e'] at hk
      cases hk
    rw [if_neg top, ← e'']
    exact List.mem_cons_of_mem _ (List.getElem_mem hk)

/-- The top block is begun. -/
theorem begin_top (h : r.Maps L data children) (e : r.indirect ≠ 0) (e' : r.doubleIndirect = 0)
    (full : data.length = 140) {s : SectorId} (hs : s ≠ 0)
    (hL : L' s = IndexBlock.sectorOf []) (same : L' r.indirect = L r.indirect) :
    ({ r with doubleIndirect := s } : Record).Maps L' data children := by
  obtain rfl := h.noTop e'
  refine ⟨h.nonzero, h.direct, h.noFirst, fun _ => ?_, fun e'' => absurd e'' hs,
    fun _ => ⟨e, Nat.le_of_eq full.symm, hL⟩, h.reach, nofun, Nat.zero_le _, nofun⟩
  rw [same]
  exact h.first e

/-- Entries are added to the last child of the top block. -/
theorem append_child (h : r.Maps L data children) {k : Nat} (hk : k + 1 = children.length)
    (hk' : k < children.length) (hn : ∀ id ∈ new, id ≠ 0)
    (le : data.length + new.length ≤ 140 + 128 * children.length)
    (hL : L' children[k] = IndexBlock.sectorOf (chunk data (140 + 128 * k) ++ new))
    (others : ∀ s ∈ r.blocks children, s ≠ children[k] → L' s = L s)
    (nodup : (r.blocks children).Nodup) : r.Maps L' (data ++ new) children := by
  have top : r.doubleIndirect ≠ 0 := fun e => by
    rw [h.noTop e] at hk'
    cases hk'
  obtain ⟨e, far, topBlock⟩ := h.top top
  have full := h.full k hk'
  have length : (data ++ new).length = data.length + new.length := List.length_append
  unfold blocks at nodup
  rw [if_neg e, if_neg top, List.singleton_append, List.nodup_cons, List.nodup_cons] at nodup
  obtain ⟨notFirst, notTop, distinct⟩ := nodup
  have mem : children[k] ∈ children := List.getElem_mem hk'
  refine ⟨h.nonzero_append hn, ?_, fun e' => absurd e' e, fun _ => ⟨by omega, ?_⟩, h.noTop,
    fun _ => ⟨e, by omega, ?_⟩, by omega, fun j hj => ?_, h.width, fun j hj => ?_⟩
  · rw [h.direct, List.take_append_of_le_length (by omega)]
  · rw [others _ (mem_blocks_first e) fun e' => notFirst ?_, (h.first e).2,
      chunk_append_of_full new (by omega)]
    rw [e']
    exact List.mem_cons_of_mem _ mem
  · rw [others _ (mem_blocks_top top) fun e' => notTop ?_]
    · exact topBlock
    · rw [e']
      exact mem
  · have := h.full j hj
    omega
  · by_cases e' : j = k
    · subst e'
      rw [chunk_append new full (by omega)]
      exact hL
    · rw [others _ (h.mem_blocks_child (List.getElem_mem hj)) fun e'' => e' ?_, h.child j hj,
        chunk_append_of_full new (by omega)]
      exact (List.Nodup.getElem_inj_iff distinct).1 e''

/-- A child is hung below the top block. -/
theorem add_child (h : r.Maps L data children) (e : r.doubleIndirect ≠ 0)
    (full : data.length = 140 + 128 * children.length) (lt : children.length < 128)
    {child : SectorId} (hc : child ≠ 0) (hL : L' child = IndexBlock.sectorOf [])
    (top : L' r.doubleIndirect = IndexBlock.sectorOf (children ++ [child]))
    (others : ∀ s ∈ r.blocks children, s ≠ r.doubleIndirect → L' s = L s)
    (nodup : (r.blocks children).Nodup) : r.Maps L' data (children ++ [child]) := by
  obtain ⟨e', far, -⟩ := h.top e
  have length : (children ++ [child]).length = children.length + 1 := List.length_append
  unfold blocks at nodup
  rw [if_neg e', if_neg e, List.singleton_append, List.nodup_cons, List.nodup_cons] at nodup
  obtain ⟨notFirst, notTop, -⟩ := nodup
  refine ⟨fun id hid => ?_, h.direct, h.noFirst, fun _ => ⟨(h.first e').1, ?_⟩,
    fun e'' => absurd e'' e, fun _ => ⟨e', far, top⟩, by omega, fun k hk => by omega, by omega,
    fun k hk => ?_⟩
  · rcases List.mem_append.1 hid with hid | hid
    · exact h.nonzero_data id hid
    · rcases List.mem_append.1 hid with hid | hid
      · exact h.nonzero_children id hid
      · rw [List.mem_singleton.1 hid]
        exact hc
  · rw [others _ (mem_blocks_first e') fun e'' => notFirst ?_]
    · exact (h.first e').2
    · rw [e'']
      exact List.mem_cons_self
  · by_cases e'' : k < children.length
    · rw [List.getElem_append_left e'', others _ (h.mem_blocks_child (List.getElem_mem e''))
        fun same => notTop ?_]
      · exact h.child k e''
      · rw [← same]
        exact List.getElem_mem e''
    · obtain rfl : k = children.length := by omega
      rw [List.getElem_concat_length, chunk_of_length_le (Nat.le_of_eq full)]
      · exact hL
      · rfl

end Maps

end Record

end SectorVolume
