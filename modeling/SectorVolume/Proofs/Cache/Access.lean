import SectorVolume.Proofs.Cache.Logical

/-!
# What accesses do to a storage

One statement for each operation of a storage: the invariant is kept, and the content changes as the
operation says and not at all when it fails. An operation fails only because it waits for a pin or
because the disk failed.
-/

namespace SectorVolume

namespace Storage

open SectorVolume.Action

variable {w : Prop} {n : Nat} {pins : List Pin} {st st' st'' : Storage}

/-- After `st` came `st'`: the invariant holds, the content is `L`, and failures are not forgotten.
-/
structure Becomes (w : Prop) (n : Nat) (pins : List Pin) (st st' : Storage)
    (L : SectorId → Sector) : Prop where
  good : st'.Good w n pins
  logical : st'.logical = L
  failures : st.disk.failures ≤ st'.disk.failures

/-- The content is as before. -/
abbrev Same (w : Prop) (n : Nat) (pins : List Pin) (st st' : Storage) : Prop :=
  Becomes w n pins st st' st.logical

/-- An operation stopped, and nothing changed: it waits for one of the pins, or the disk failed
although nothing says that it works. -/
def Stops (w : Prop) (n : Nat) (pins : List Pin) (st : Storage) (e : Failure) (st' : Storage) :
    Prop :=
  (e = .blocked ∧ pins ≠ [] ∨
    (∃ cause, e = .fault (.device cause)) ∧ ¬ w ∧ st.disk.failures < st'.disk.failures) ∧
  Same w n pins st st'

theorem Good.same (h : st.Good w n pins) : Same w n pins st st := ⟨h, rfl, Nat.le_refl _⟩

theorem Same.becomes {L : SectorId → Sector} (h : Same w n pins st st')
    (h' : Becomes w n pins st' st'' L) : Becomes w n pins st st'' L :=
  ⟨h'.good, h'.logical, Nat.le_trans h.failures h'.failures⟩

theorem Becomes.trans {L : SectorId → Sector} (h : Becomes w n pins st st' L)
    (h' : Same w n pins st' st'') : Becomes w n pins st st'' L :=
  ⟨h'.good, h'.logical.trans h.logical, Nat.le_trans h.failures h'.failures⟩

theorem Same.trans (h : Same w n pins st st') (h' : Same w n pins st' st'') :
    Same w n pins st st'' := Becomes.trans h h'

theorem Same.stops {e : Failure} (h : Same w n pins st st') (h' : Stops w n pins st' e st'') :
    Stops w n pins st e st'' := by
  obtain ⟨why, same⟩ := h'
  refine ⟨?_, same.good, same.logical.trans h.logical, Nat.le_trans h.failures same.failures⟩
  rcases why with waits | ⟨device, idle, more⟩
  · exact .inl waits
  · exact .inr ⟨device, idle, Nat.lt_of_le_of_lt h.failures more⟩

theorem Stops.not_working {e : Failure} (h : Stops w n [] st e st') : ¬ w := by
  rcases h.1 with ⟨-, h⟩ | ⟨-, h, -⟩
  · exact absurd rfl h
  · exact h

/-- A change of the cache alone forgets no failures. -/
theorem Good.becomes {L : SectorId → Sector} (h : st'.Good w n pins ∧ st'.logical = L)
    (hd : st'.disk = st.disk) : Becomes w n pins st st' L :=
  ⟨h.1, h.2, Nat.le_of_eq (by rw [hd])⟩

theorem Good.same_of_disk_of_cache (h : st.Good w n pins) (hd : st'.disk = st.disk)
    (hc : st'.cache = st.cache) : Same w n pins st st' :=
  Good.becomes (h.congr_disk hc (by rw [hd]) fun hw => by rw [hd]; exact h.working hw) hd

/-! ## Writing back -/

theorem Turned.same (h : Turned st st') (good : st.Good w n pins) : Same w n pins st st' :=
  Good.becomes (good.passed h.cache h.disk) h.disk

theorem WroteBack.same {i : Nat} {l : Line} (h : WroteBack i l st st') (good : st.Good w n pins) :
    Same w n pins st st' := by
  obtain ⟨good', e⟩ := good.wroteBack h.line h.disk h.cache fun hw =>
    h.working n (good.within hw i l h.line) (good.working hw)
  exact ⟨good', e, h.failures⟩

theorem Refused.stops {i : Nat} {e : Failure} (h : Refused i st st' e)
    (good : st.Good w n pins) : Stops w n pins st e st' := by
  cases h with
  | waits used same =>
    have held : pins ≠ [] := by
      rintro rfl
      exact used (good.counted i)
    exact ⟨.inl ⟨rfl, held⟩, same ▸ good.same⟩
  | device hl hc hd more hw =>
    have works : w → False := fun hw' => hw n (good.within hw' i _ hl) (good.working hw')
    obtain ⟨good', e⟩ := good.congr_disk hc hd fun hw' => (works hw').elim
    exact ⟨.inr ⟨⟨_, rfl⟩, works, more⟩, good', e, Nat.le_of_lt more⟩

theorem ends_writeBack (h : st.Good w n pins) (i : Nat) :
    Ends (writeBack i) st (fun _ st' => Same w n pins st st') (Stops w n pins st) := by
  refine (ends_writeBack_of_slot st i).mono ?_ fun _ _ refused => refused.stops h
  rintro _ st' (⟨rfl, -⟩ | ⟨l, back⟩)
  · exact h.same
  · exact back.same h

theorem ends_writeBackAll (h : st.Good w n pins) (count : Nat) (is : List Nat) :
    Ends (writeBackAll count is) st (fun _ st' => Same w n pins st st')
      (Stops w n pins st) := by
  induction is generalizing st count with
  | nil => exact ends_pure h.same
  | cons i is ih =>
    unfold writeBackAll
    refine (ends_writeBack h i).bind (fun _ st₁ h₁ => ?_) fun _ _ h₁ => h₁
    exact (ih h₁.good _).mono (fun _ _ h₂ => h₁.trans h₂) fun _ _ h₂ => h₁.stops h₂

theorem ends_flushAll (h : st.Good w n pins) :
    Ends flushAll st (fun _ st' => Same w n pins st st')
      (Stops w n pins st) := by
  unfold flushAll
  refine ends_get_bind ((ends_writeBackAll h 0 _).bind (fun _ st₁ h₁ => ?_) fun _ _ h₁ => h₁)
  exact ends_note_bind fun st₂ hd hc => ends_pure (h₁.trans (h₁.good.same_of_disk_of_cache hd hc))

theorem ends_flushSector (h : st.Good w n pins) (sector : SectorId) :
    Ends (flushSector sector) st (fun _ st' => Same w n pins st st')
      (Stops w n pins st) := by
  unfold flushSector
  refine ends_get_bind ?_
  split
  · exact ends_pure h.same
  · exact ends_writeBack h _

/-! ## Bringing sectors into the cache -/

theorem Cleared.same (h : Cleared st st') (good : st.Good w n pins) : Same w n pins st st' := by
  cases h with
  | atOnce turned => exact turned.same good
  | writing first back second =>
    have first := first.same good
    have back := back.same first.good
    exact (first.trans back).trans (second.same back.good)

theorem Emptied.same {sector : SectorId} {i : Nat} (h : Emptied sector i st st')
    (hs : sector.toNat < n) (good : st.Good w n pins) : Same w n pins st st' := by
  let vacated : Storage := ⟨st.disk, st.cache.vacate i, st.log⟩
  obtain ⟨good₁, e₁⟩ : vacated.Good w n pins ∧ vacated.logical = st.logical :=
    good.vacate h.ready rfl rfl
  obtain ⟨good', e⟩ := good₁.congr_disk h.cache h.disk fun hw => h.working n hs (good.working hw)
  exact ⟨good', e.trans e₁, h.failures⟩

theorem Unread.stops {sector : SectorId} {i : Nat} {e : Failure} (h : Unread sector i st st' e)
    (hs : sector.toNat < n) (good : st.Good w n pins) : Stops w n pins st e st' :=
  ⟨.inr ⟨h.device, fun hw => h.idle n hs (good.working hw), h.more⟩, h.emptied.same hs good⟩

/-- A sector that has no slot gets an empty one, whatever its first bytes are. -/
theorem ends_claim (h : st.Good w n pins) {sector : SectorId} (hs : sector.toNat < n)
    (absent : st.cache.lookup sector = none) (fill : Fill) :
    Ends (claim sector fill) st
      (fun i st' => ∃ st₀, Same w n pins st st₀ ∧ i < st₀.cache.slots.size ∧
        (st₀.cache.slot i).line = none ∧ st₀.cache.lookup sector = none ∧ st'.disk = st₀.disk ∧
        st'.cache = st₀.cache.bind i (fill.line sector st₀.disk))
      (Stops w n pins st) := by
  refine (ends_claim_emptied h.wellFormed h.inhabited sector fill).mono ?_ ?_
  · rintro i st' ⟨st₁, st₂, cleared, emptied, hd, hc, -⟩
    have same := cleared.same h
    rw [← cleared.lookup] at absent
    exact ⟨st₂, same.trans (emptied.same hs same.good), emptied.inside, emptied.empty,
      emptied.absent absent, hd, hc⟩
  · rintro e st' ⟨i, st₁, ⟨turned, refused⟩ | ⟨cleared, unread⟩⟩
    · have same := turned.same h
      exact same.stops (refused.stops same.good)
    · have same := cleared.same h
      exact same.stops (unread.stops hs same.good)

/-- A sector gets a slot with the bytes that it has. -/
theorem ends_claim_disk (h : st.Good w n pins) {sector : SectorId} (hs : sector.toNat < n)
    (absent : st.cache.lookup sector = none) :
    Ends (claim sector .disk) st
      (fun i st' => Same w n pins st st' ∧ st'.cache.lookup sector = some i)
      (Stops w n pins st) := by
  refine (ends_claim h hs absent .disk).mono (fun i st₁ h₁ => ?_) fun _ _ h => h
  obtain ⟨st₀, same₀, lt₀, empty₀, absent₀, hd, hc⟩ := h₁
  obtain ⟨good, e⟩ := same₀.good.bind lt₀ empty₀ absent₀ (fun _ => hs) (fun _ => rfl) hd hc
  have unchanged : Function.update st₀.logical sector (st₀.disk.sector sector.toNat) =
      st₀.logical := by
    rw [← logical_of_absent absent₀, Function.update_eq_self]
  refine ⟨same₀.trans (Good.becomes ⟨good, e.trans unchanged⟩ hd), ?_⟩
  · rw [hc, Cache.lookup_bind]
    exact if_pos rfl

/-- A sector that is given bytes for all of it gets a slot with them. -/
theorem ends_claim_bytes (h : st.Good w n pins) {sector : SectorId} (hs : sector.toNat < n)
    (absent : st.cache.lookup sector = none) (b : Sector) :
    Ends (claim sector (.bytes b)) st
      (fun _ st' => Becomes w n pins st st' (Function.update st.logical sector b))
      (Stops w n pins st) := by
  refine (ends_claim h hs absent (.bytes b)).mono (fun i st₁ h₁ => ?_) fun _ _ h => h
  obtain ⟨st₀, same₀, lt₀, empty₀, absent₀, hd, hc⟩ := h₁
  rw [← same₀.logical]
  exact same₀.becomes <| Good.becomes
    (same₀.good.bind lt₀ empty₀ absent₀ (fun _ => hs) (fun hm => absurd rfl hm) hd hc) hd

theorem ends_fetch (h : st.Good w n pins) {sector : SectorId} (hs : sector.toNat < n) :
    Ends (fetch sector .disk) st
      (fun i st' => Same w n pins st st' ∧ st'.cache.lookup sector = some i)
      (Stops w n pins st) := by
  cases e : st.cache.lookup sector with
  | some i => exact (ends_pure ⟨h.same, e⟩).of_eq (fetch_of_lookup e .disk)
  | none => exact (ends_claim_disk h hs e).of_eq (fetch_of_absent e .disk)

end Storage

end SectorVolume
