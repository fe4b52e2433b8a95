import SectorVolume.Proofs.Allocation.Releasing

/-!
# The bitmap as a set of free sectors

The clear bits are a set, and each operation of the bitmap is one on that set: an allocation takes
its least members, a release adds a range to it, setting up replaces it. This is so as long as no
transfer fails; but whatever happens, no sector beside the bitmap changes.
-/

namespace SectorVolume

namespace FreeMap

open SectorVolume.Action Storage

variable {m : FreeMap} {w : Prop} {n : Nat} {st st' : Storage} {L L' : SectorId → Sector}
  {α : Type}

/-- The storage stays intact, and the sectors beside the bitmap are as before. -/
structure Spares (m : FreeMap) (st st' : Storage) : Prop where
  intact : st'.Intact
  others : ∀ s, ¬ m.Holds s → st'.logical s = st.logical s

/-- However the operation ends it spares what is beside the bitmap. If no transfer failed meanwhile,
it yields a result with `done`, or it fails with `refused`. -/
def Does (m : FreeMap) (x : Action Storage α) (st : Storage)
    (done : α → (SectorId → Sector) → Prop) (refused : Failure → (SectorId → Sector) → Prop) :
    Prop :=
  Ends x st
    (fun a st' => m.Spares st st' ∧
      (st'.disk.failures = st.disk.failures → done a st'.logical))
    fun e st' => m.Spares st st' ∧
      (st'.disk.failures = st.disk.failures → refused e st'.logical)

/-- The positions of a range of sectors. -/
def span (range : SectorId × Nat) : List Nat := List.range' range.1.toNat range.2

/-- What the operations of the bitmap do to the set of the clear bits. -/
structure LowestFirst (m : FreeMap) (st : Storage) : Prop where
  /-- An allocation takes the least positions, in order, and is refused only if there are too few.
  It answers so, unless their number is such that they could not even be listed. -/
  allocates : ∀ count, m.Does (m.allocate count) st
    (fun ids L => count ≤ (m.clear st.logical).length ∧
      ids.map (·.toNat) = (m.clear st.logical).take count ∧
      m.clear L = (m.clear st.logical).drop count)
    fun e L => (m.clear st.logical).length < count ∧
      e = (if Listable count then .fault (.exhausted count) else .violation .tooManyIds) ∧
      m.clear L = m.clear st.logical
  /-- The number of free sectors is that of the clear bits. -/
  counts : m.Does m.freeCount st
    (fun free L => free = (m.clear st.logical).length ∧ L = st.logical) fun _ _ => False
  /-- A release clears a range of set bits. It is refused only if some of them are not there or
  clear, or if the end of the range is not a sector number. -/
  releases : ∀ (first : SectorId) (count : Nat), m.Does (m.release first count) st
    (fun _ L => m.Freed st.logical L first.toNat (count % wordRange32))
    fun _ _ => m.Covers st.logical first.toNat (count % wordRange32) →
      wordRange32 ≤ first.toNat + count % wordRange32
  /-- If all that was taken is given back, in ranges of any kind, the same bits are clear as
  before. -/
  restores : ∀ (count : Nat) (ids : List SectorId) (st' : Storage) (ranges : List (SectorId × Nat)),
    m.allocate count st = .ok ids st' →
    (∀ range ∈ ranges, range.1.toNat + range.2 < wordRange32) →
    (ranges.flatMap span).Perm (ids.map (·.toNat)) →
      m.Does (forM ranges fun range => m.release range.1 range.2) st'
        (fun _ L => m.clear L = m.clear st.logical) fun _ _ => False
  /-- A new bitmap is clear between the reserved sectors and the end. -/
  formats : ∀ reserved, m.Does (m.format reserved) st
    (fun _ L => ∀ k, k ∈ m.clear L ↔ reserved ≤ k ∧ k < m.total) fun _ _ => False

theorem Clears.spares {P : Nat → Prop} (h : m.Clears st.logical st'.logical P)
    (good : st'.Good w n []) : m.Spares st st' := ⟨good.intact, h.others⟩

theorem spares_of_same (same : Same w n [] st st') : m.Spares st st' :=
  ⟨same.good.intact, fun s _ => congrFun same.logical s⟩

theorem mem_span {range : SectorId × Nat} {k : Nat} :
    k ∈ span range ↔ range.1.toNat ≤ k ∧ k < range.1.toNat + range.2 := List.mem_range'_1

theorem does_allocate (hp : m.Placed wordRange32) (h : st.Intact) (count : Nat) :
    m.Does (m.allocate count) st
      (fun ids L => count ≤ (m.clear st.logical).length ∧
        ids.map (·.toNat) = (m.clear st.logical).take count ∧
        m.clear L = (m.clear st.logical).drop count)
      fun e L => (m.clear st.logical).length < count ∧
        e = (if Listable count then .fault (.exhausted count) else .violation .tooManyIds) ∧
        m.clear L = m.clear st.logical := by
  refine (ends_allocate hp.stands h hp.named count).mono (fun ids st₁ h₁ => ?_) ?_
  · obtain ⟨good, -, length, handed⟩ := h₁
    have length : (ids.map (·.toNat)).length = count := (List.length_map _).trans length
    refine ⟨⟨good, handed.others⟩, fun _ => ?_⟩
    rw [handed.first, List.take_left' length, List.drop_left' length, List.length_append, length]
    exact ⟨Nat.le_add_right _ _, rfl, rfl⟩
  · rintro _ st₁ (⟨listable, c, rfl, good, lost, denied⟩ | ⟨beyond, rfl, rfl⟩)
    · refine ⟨denied.clears.spares good, fun clean => ?_⟩
      obtain rfl := denied.lost_eq_nil clean
      rcases denied.reason with ⟨rfl, short, -⟩ | ⟨-, more⟩
      · exact ⟨short, (if_pos listable).symm, denied.clear_eq⟩
      · exact absurd clean (by simpa using Nat.ne_of_gt more)
    · have short : (m.clear st₁.logical).length < count := Nat.lt_of_not_le fun le =>
        beyond (listable_of_le (Nat.le_trans le hp.length_clear_le))
      exact ⟨⟨h, fun _ _ => rfl⟩, fun _ => ⟨short, (if_neg beyond).symm, rfl⟩⟩

theorem does_freeCount (hp : m.Stands wordRange32) (h : st.Intact) :
    m.Does m.freeCount st
      (fun free L => free = (m.clear st.logical).length ∧ L = st.logical) fun _ _ => False := by
  refine (meets_freeCount hp h).ends.mono (fun free st₁ h₁ => ?_) ?_
  · obtain ⟨same, rfl⟩ := h₁
    exact ⟨spares_of_same same, fun _ => ⟨clearBits_eq .., same.logical⟩⟩
  · rintro _ st₁ ⟨_, _, _, _, more, same⟩
    exact ⟨spares_of_same same, fun clean => Nat.ne_of_gt more clean⟩

/-- Ranges that lie apart and are all taken are given back one after the other. -/
theorem ends_releaseEach (hp : m.Stands n) (ranges : List (SectorId × Nat)) (h : st.Good w n [])
    (small : ∀ range ∈ ranges, range.1.toNat + range.2 < wordRange32)
    (apart : (ranges.flatMap span).Nodup)
    (marked : ∀ k ∈ ranges.flatMap span, m.Marked st.logical k) :
    Ends (forM ranges fun range => m.release range.1 range.2) st
      (fun _ st' => st'.disk.failures = st.disk.failures ∧ st'.Good w n [] ∧
        m.Clears st.logical st'.logical fun k => k ∈ m.clear st.logical ∨ k ∈ ranges.flatMap span)
      fun _ st' => st'.Good w n [] ∧ (∀ s, ¬ m.Holds s → st'.logical s = st.logical s) ∧
        st.disk.failures < st'.disk.failures := by
  induction ranges generalizing st with
  | nil => exact ends_pure ⟨rfl, h, Clears.refl.congr fun k => by simp⟩
  | cons range rest ih =>
    rw [List.flatMap_cons] at apart marked
    obtain ⟨-, apart', between⟩ := List.nodup_append.1 apart
    have last := small range List.mem_cons_self
    have word : range.2 % wordRange32 = range.2 :=
      Nat.mod_eq_of_lt (Nat.lt_of_le_of_lt (Nat.le_add_left ..) last)
    have releasing := ends_release hp h range.1 range.2
    rw [word] at releasing
    rw [List.forM_cons]
    refine releasing.bind (fun _ st₁ h₁ => ?_) fun _ st₁ h₁ => ?_
    · obtain ⟨clean, good, freed⟩ := h₁
      refine (ih good (fun r hr => small r (List.mem_cons_of_mem _ hr)) apart' fun k hk => ?_).mono
        (fun _ st₂ h₂ => ?_) fun _ st₂ h₂ => ?_
      · have before := marked k (List.mem_append_right _ hk)
        refine marked_of_not_mem before.1 fun clear => ?_
        rcases (freed.clears.clear k).1 clear with clear | inside
        · exact before.not_mem_clear clear
        · exact between k (mem_span.2 inside) k hk rfl
      · refine ⟨h₂.1.trans clean, h₂.2.1, (freed.clears.trans h₂.2.2).congr fun k => ?_⟩
        rw [freed.clears.clear, List.flatMap_cons, List.mem_append, mem_span, or_assoc]
      · exact ⟨h₂.1, fun s hs => (h₂.2.1 s hs).trans (freed.clears.others s hs), clean ▸ h₂.2.2⟩
    · obtain ⟨good, others, device⟩ := h₁
      refine ⟨good, others, (device last fun k ge lt => ?_).2⟩
      exact marked k (List.mem_append_left _ (mem_span.2 ⟨ge, lt⟩))

theorem Handed.does_restore {ids : List SectorId} (handed : m.Handed st.logical st'.logical ids)
    (hp : m.Stands wordRange32) (h : st'.Intact) {ranges : List (SectorId × Nat)}
    (small : ∀ range ∈ ranges, range.1.toNat + range.2 < wordRange32)
    (same : (ranges.flatMap span).Perm (ids.map (·.toNat))) :
    m.Does (forM ranges fun range => m.release range.1 range.2) st'
      (fun _ L => m.clear L = m.clear st.logical) fun _ _ => False := by
  have apart : (ranges.flatMap span).Nodup := by
    have all := nodup_clear (m := m) (L := st.logical)
    rw [handed.first] at all
    exact same.nodup_iff.2 all.of_append_left
  refine (ends_releaseEach hp ranges h small apart fun k hk => ?_).mono (fun _ st₁ h₁ => ?_)
    fun _ st₁ h₁ => ?_
  · obtain ⟨id, hid, rfl⟩ := List.mem_map.1 (same.mem_iff.1 hk)
    exact handed.marked hid
  · obtain ⟨-, good, clears⟩ := h₁
    refine ⟨clears.spares good, fun _ => FreeMap.clear_eq pairwise_clear fun k => ?_⟩
    rw [clears.clear, same.mem_iff, handed.first, List.mem_append, or_comm]
  · exact ⟨⟨h₁.1, h₁.2.1⟩, fun clean => Nat.ne_of_gt h₁.2.2 clean⟩

/-- In every state of an intact storage the operations of a bitmap are those of a set that hands out
its least members first. -/
theorem lowest_first (hp : m.Placed wordRange32) (h : st.Intact) : m.LowestFirst st where
  allocates := does_allocate hp h
  counts := does_freeCount hp.stands h
  releases first count := by
    refine (ends_release hp.stands h first count).mono (fun _ st₁ h₁ => ?_) fun _ st₁ h₁ => ?_
    · exact ⟨h₁.2.2.clears.spares h₁.2.1, fun _ => h₁.2.2⟩
    · refine ⟨⟨h₁.1, h₁.2.1⟩, fun clean covers => Nat.le_of_not_lt fun last => ?_⟩
      exact Nat.ne_of_gt (h₁.2.2 last covers).2 clean
  restores count ids st' ranges run small same := by
    obtain ⟨good, -, -, handed⟩ := (ends_allocate hp.stands h hp.named count).ok run
    exact handed.does_restore hp.stands good small same
  formats reserved := by
    refine (meets_format hp.stands h reserved).ends.mono (fun _ st₁ h₁ => ?_) ?_
    · have clears := clears_fresh h₁.2.2
      refine ⟨clears.spares h₁.1, fun _ k => (clears.clear k).trans ?_⟩
      have := hp.total
      omega
    · rintro _ st₁ ⟨_, _, ⟨-, more⟩, good, others⟩
      exact ⟨⟨good, others⟩, fun clean => Nat.ne_of_gt more clean⟩

/-- With two of eight sectors reserved, six are handed out one after the other. -/
theorem lowest_first_of_formatted : ∃ (m : FreeMap) (st : Storage), m.Placed wordRange32 ∧
    st.Intact ∧ m.clear st.logical = [2, 3, 4, 5, 6, 7] ∧ m.LowestFirst st := by
  have placed : (⟨1, 1, 8⟩ : FreeMap).Placed wordRange32 :=
    ⟨by decide, Nat.le_refl _, by decide, by decide⟩
  obtain ⟨_, st, -, -, good, clear⟩ := exists_formatted placed.stands 2
  refine ⟨_, st, placed, good.intact, FreeMap.clear_eq (by decide) fun k => ?_,
    lowest_first placed good.intact⟩
  have spots : (2 ≤ k ∧ k < 8) ↔ k ∈ [2, 3, 4, 5, 6, 7] := by
    simp only [List.mem_cons, List.not_mem_nil, or_false]
    omega
  rw [clear, ← spots]
  exact and_iff_right_of_imp fun h => Nat.lt_trans h.2 (by decide)

/-- The sector with the last of all numbers may be taken, but it cannot be given back. -/
theorem stuck_at_last : ∃ (m : FreeMap) (st : Storage), m.Placed wordRange32 ∧ st.Intact ∧
    m.Covers st.logical 4294967295 1 ∧
    m.release 4294967295 1 st = .error (.violation .sumOverflow) st := by
  have placed : (⟨0, 1048576, 4294967296⟩ : FreeMap).Placed wordRange32 :=
    ⟨by decide, Nat.le_refl _, by decide, by decide⟩
  obtain ⟨_, st, -, -, good, clear⟩ := exists_formatted placed.stands 4294967296
  exact ⟨_, st, placed, good.intact, covers_of_reserved clear (by decide) (by decide), rfl⟩

end FreeMap

end SectorVolume
