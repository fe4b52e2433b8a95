import SectorVolume.Proofs.Cache.Access

/-!
# Reading and writing through the cache

Reading yields bytes of the content. A write or a modification that succeeds changes the content of
its sector in the addressed range; one that fails, for whatever reason, changes no content.
-/

namespace SectorVolume

namespace Storage

open SectorVolume.Action

variable {w : Prop} {n : Nat} {pins : List Pin} {st st' : Storage}

/-- The operation stopped or was refused by a rule of use, and nothing changed. `refused` says when
a violation can be the reason. -/
def Halts (w : Prop) (n : Nat) (pins : List Pin) (st : Storage) (refused : Violation → Prop)
    (e : Failure) (st' : Storage) : Prop :=
  Stops w n pins st e st' ∨ (∃ v, e = .violation v ∧ refused v) ∧ Same w n pins st st'

theorem Same.halts {refused : Violation → Prop} {e : Failure} {st'' : Storage}
    (h : Same w n pins st st') (h' : Halts w n pins st' refused e st'') :
    Halts w n pins st refused e st'' :=
  h'.imp h.stops fun ⟨why, same⟩ => ⟨why, h.trans same⟩

theorem Halts.same {refused : Violation → Prop} {e : Failure}
    (h : Halts w n pins st refused e st') : Same w n pins st st' := h.elim And.right And.right

theorem halts_checkRange (h : st.Good w n pins) (offset len : Nat) (outside : Violation) :
    Ends (checkRange offset len outside) st (fun _ st' => st' = st ∧ offset + len ≤ 512)
      (Halts w n pins st fun _ => ¬ offset + len ≤ 512) := by
  refine (ends_checkRange st offset len outside).mono (fun _ _ h => h) ?_
  rintro e _ ⟨rfl, ⟨v, rfl⟩, large⟩
  exact .inr ⟨⟨v, rfl, large⟩, h.same⟩

/-! ## Slots -/

theorem ends_readSlot (h : st.Good w n pins) {sector : SectorId} {i : Nat}
    (hi : st.cache.lookup sector = some i) :
    Ends (readSlot i) st (fun b st' => Same w n pins st st' ∧ b = st.logical sector)
      fun _ _ => False :=
  ends_modifyGet ⟨Good.becomes (h.touch rfl rfl) rfl, (logical_of_lookup hi).symm⟩

theorem ends_overlaySlot (h : st.Good w n pins) {sector : SectorId} {i : Nat}
    (hi : st.cache.lookup sector = some i) (offset : Nat) (bytes : Bytes) :
    Ends (overlaySlot i offset bytes) st
      (fun _ st' => Becomes w n pins st st'
        (Function.update st.logical sector ((st.logical sector).overlay offset bytes)))
      fun _ _ => False := by
  refine ends_onCache fun st₁ hd hc => ?_
  rw [logical_of_lookup hi]
  exact Good.becomes (h.store _ hi hd hc) hd

theorem ends_readViewSlot {α : Type} (h : st.Good w n pins) (view : View α) {sector : SectorId}
    {i : Nat} (hi : st.cache.lookup sector = some i) (offset : Nat) :
    Ends (readViewSlot view i offset) st
      (fun a st' => Same w n pins st st' ∧ view.read (st.logical sector) offset = .ok a)
      (Halts w n pins st fun v => view.read (st.logical sector) offset = .error v) := by
  unfold readViewSlot
  refine ends_get_bind ?_
  rw [← logical_of_lookup hi]
  refine (ends_ofExcept (d := fun a st' => st' = st ∧ view.read (st.logical sector) offset = .ok a)
    (fun a e => ⟨rfl, e⟩) fun v e => .inr ⟨⟨v, rfl, e⟩, h.same⟩).bind ?_ fun _ _ h => h
  rintro a _ ⟨rfl, e⟩
  exact ends_onCache_bind fun st₁ hd hc => ends_pure ⟨Good.becomes (h.touch hd hc) hd, e⟩

theorem ends_modifyViewSlot {α : Type} (h : st.Good w n pins) (view : View α) {sector : SectorId}
    {i : Nat} (hi : st.cache.lookup sector = some i) (offset : Nat) (f : α → α) :
    Ends (modifyViewSlot view i offset f) st
      (fun a st' => view.read (st.logical sector) offset = .ok a ∧ Becomes w n pins st st'
        (Function.update st.logical sector
          ((st.logical sector).overlay offset (view.encode (f a)).toArray)))
      (Halts w n pins st fun v => view.read (st.logical sector) offset = .error v) := by
  unfold modifyViewSlot
  refine ends_get_bind ?_
  rw [← logical_of_lookup hi]
  unfold View.modify
  cases e : view.read (st.logical sector) offset with
  | error v => exact ends_violate_bind (.inr ⟨⟨v, rfl, rfl⟩, h.same⟩)
  | ok a =>
    refine (ends_ofExcept (d := fun r st' => st' = st ∧
      r = (a, (st.logical sector).overlay offset (view.encode (f a)).toArray))
      (fun r e => ⟨rfl, (Except.ok.inj e).symm⟩) fun v e => nomatch e).bind ?_ fun _ _ h => h
    rintro _ _ ⟨rfl, rfl⟩
    exact ends_onCache_bind fun st₁ hd hc => ends_pure ⟨rfl, Good.becomes (h.store _ hi hd hc) hd⟩

/-! ## Sectors -/

theorem ends_read (h : st.Good w n pins) {sector : SectorId} (hs : sector.toNat < n)
    (offset len : Nat) :
    Ends (read sector offset len) st
      (fun b st' => Same w n pins st st' ∧ offset + len ≤ 512 ∧
        b = (st.logical sector).slice offset len)
      (Halts w n pins st fun _ => ¬ offset + len ≤ 512) := by
  unfold read
  refine (halts_checkRange h offset len _).bind (fun _ st₁ h₁ => ?_) fun _ _ h => h
  obtain ⟨rfl, hr⟩ := h₁
  refine (ends_fetch h hs).bind (fun i st₂ h₂ => ?_) fun _ _ h => .inl h
  refine (ends_readSlot h₂.1.good h₂.2).bind (fun b st₃ h₃ => ?_) fun _ _ h => h.elim
  obtain ⟨same₃, rfl⟩ := h₃
  refine ends_note_bind fun st₄ hd hc => ends_pure ⟨?_, hr, by rw [h₂.1.logical]⟩
  exact (h₂.1.trans same₃).trans (same₃.good.same_of_disk_of_cache hd hc)

theorem overlay_whole (s : Sector) {bytes : Bytes} (h : bytes.size = 512) :
    s.overlay 0 bytes = Sector.ofBytes bytes := by
  refine Vector.ext fun i hi => ?_
  rw [Sector.getElem_overlay_of_mem _ _ (Nat.zero_le _) (by omega)]
  simp [Sector.ofBytes, Array.getD_eq_getD_getElem?, Array.getElem?_eq_getElem (h ▸ hi)]

theorem ends_write (h : st.Good w n pins) {sector : SectorId} (hs : sector.toNat < n)
    (offset : Nat) (bytes : Bytes) :
    Ends (write sector offset bytes) st
      (fun _ st' => offset + bytes.size ≤ 512 ∧ Becomes w n pins st st'
        (Function.update st.logical sector ((st.logical sector).overlay offset bytes)))
      (Halts w n pins st fun _ => ¬ offset + bytes.size ≤ 512) := by
  unfold write
  refine (halts_checkRange h offset bytes.size _).bind (fun _ st₁ h₁ => ?_) fun _ _ h => h
  obtain ⟨rfl, hr⟩ := h₁
  have rest : ∀ st₂ i, Same w n pins st₁ st₂ → st₂.cache.lookup sector = some i →
      Ends (do
        overlaySlot i offset bytes
        note (.sectorWritten sector offset bytes.size)) st₂
        (fun _ st' => offset + bytes.size ≤ 512 ∧ Becomes w n pins st₁ st'
          (Function.update st₁.logical sector ((st₁.logical sector).overlay offset bytes)))
        (Halts w n pins st₁ fun _ => ¬ offset + bytes.size ≤ 512) := by
    intro st₂ i same₂ hi
    refine (ends_overlaySlot same₂.good hi offset bytes).bind (fun _ st₃ h₃ => ?_) fun _ _ h => h.elim
    refine ends_note fun st₄ hd hc => ⟨hr, ?_⟩
    rw [← same₂.logical]
    exact same₂.becomes (h₃.trans (h₃.good.same_of_disk_of_cache hd hc))
  refine ends_get_bind ?_
  split
  · next i hi => exact rest st₁ i h.same hi
  · next absent =>
    split
    · next whole =>
      obtain ⟨rfl, hb⟩ := whole
      refine ends_note_bind fun st₂ hd hc => ?_
      have same₂ := h.same_of_disk_of_cache hd hc
      refine (ends_claim_bytes same₂.good hs (by rw [hc]; exact absent) _).bind
        (fun _ st₃ h₃ => ends_pure ⟨hr, ?_⟩) fun _ _ h => .inl (same₂.stops h)
      rw [overlay_whole _ hb, ← same₂.logical]
      exact same₂.becomes h₃
    · exact (ends_claim_disk h hs absent).bind (fun i st₂ h₂ => rest st₂ i h₂.1 h₂.2)
        fun _ _ h => .inl h

theorem ends_readSector (h : st.Good w n pins) {sector : SectorId} (hs : sector.toNat < n) :
    Ends (readSector sector) st (fun b st' => Same w n pins st st' ∧ b = st.logical sector)
      (Stops w n pins st) := by
  unfold readSector
  refine (ends_fetch h hs).bind (fun i st₁ h₁ => ?_) fun _ _ h => h
  refine (ends_readSlot h₁.1.good h₁.2).mono (fun b st₂ h₂ => ?_) fun _ _ h => h.elim
  exact ⟨h₁.1.trans h₂.1, by rw [h₂.2, h₁.1.logical]⟩

theorem ends_modifySector {α : Type} (h : st.Good w n pins) {sector : SectorId}
    (hs : sector.toNat < n) (f : Sector → Except Violation (α × Sector)) :
    Ends (modifySector sector f) st
      (fun a st' => ∃ b, f (st.logical sector) = .ok (a, b) ∧
        Becomes w n pins st st' (Function.update st.logical sector b))
      (Halts w n pins st fun v => f (st.logical sector) = .error v) := by
  unfold modifySector
  refine (ends_fetch h hs).bind (fun i st₁ h₁ => ?_) fun _ _ h => .inl h
  obtain ⟨same₁, hi⟩ := h₁
  refine ends_get_bind ?_
  rw [← logical_of_lookup hi, same₁.logical]
  refine (ends_ofExcept (d := fun r st' => st' = st₁ ∧ f (st.logical sector) = .ok r)
    (fun r e => ⟨rfl, e⟩) fun v e => .inr ⟨⟨v, rfl, e⟩, same₁⟩).bind ?_ fun _ _ h => h
  rintro r _ ⟨rfl, e⟩
  refine ends_onCache_bind fun st₂ hd hc => ends_pure ⟨r.2, e, ?_⟩
  rw [← same₁.logical]
  exact same₁.becomes (Good.becomes (same₁.good.store _ hi hd hc) hd)

theorem store_bind (c : Cache) {i : Nat} {s : SectorId} {m : Mark} {b b' : Sector} :
    (c.bind i ⟨s, m, b⟩).store i b' = c.bind i ⟨s, .dirty, b'⟩ := by
  obtain ⟨slots, ring, index⟩ := c
  simp only [Cache.store, Cache.bind, Cache.modifySlot, Cache.mk.injEq, and_true]
  refine Array.ext (by simp) fun j hj hj' => ?_
  by_cases e : i = j <;> simp [Array.getElem_modify, e, Slot.store]

/-- A sector is claimed without reading it and gets the content that `f` makes of what its slot
holds then: its own content, or zeros. -/
theorem ends_overwriteSector (h : st.Good w n pins) {sector : SectorId} (hs : sector.toNat < n)
    (f : Sector → Sector) :
    Ends (do
        let i ← fetch sector .blank
        onCache fun c => c.store i (f (c.bytes i))) st
      (fun _ st' => ∃ b, (b = st.logical sector ∨ b = Sector.zero) ∧
        Becomes w n pins st st' (Function.update st.logical sector (f b)))
      (Stops w n pins st) := by
  cases e : st.cache.lookup sector with
  | some i =>
    refine Ends.bind (d := fun j st' => j = i ∧ st' = st)
      ((ends_pure ⟨rfl, rfl⟩).of_eq (fetch_of_lookup e .blank)) ?_ fun _ _ h => h
    rintro _ _ ⟨rfl, rfl⟩
    exact ends_onCache fun st₁ hd hc => ⟨_, .inl (logical_of_lookup e).symm,
      Good.becomes (h.store _ e hd hc) hd⟩
  | none =>
    refine ((ends_claim h hs e .blank).of_eq (fetch_of_absent e .blank)).bind ?_ fun _ _ h => h
    rintro i st₁ ⟨st₀, same₀, lt₀, empty₀, absent₀, hd, hc⟩
    have zero : st₁.cache.bytes i = Sector.zero := by
      have line : (st₁.cache.slot i).line = some (Fill.line sector st₁.disk .blank) := by
        rw [hc, Cache.slot_bind, if_pos ⟨rfl, lt₀⟩]
        rfl
      rw [bytes_of_line line]
      rfl
    refine ends_onCache fun st₂ hd₂ hc₂ => ⟨st₁.cache.bytes i, .inr zero, ?_⟩
    generalize f (st₁.cache.bytes i) = b at hc₂
    rw [hc, Fill.line, store_bind] at hc₂
    rw [← same₀.logical]
    exact same₀.becomes <| Good.becomes (same₀.good.bind lt₀ empty₀ absent₀ (fun _ => hs)
      (fun hm => absurd rfl hm) (hd₂.trans hd) hc₂) (hd₂.trans hd)

theorem ends_replaceSector (h : st.Good w n pins) {sector : SectorId} (hs : sector.toNat < n)
    (b : Sector) :
    Ends (replaceSector sector b) st
      (fun _ st' => Becomes w n pins st st' (Function.update st.logical sector b))
      (Stops w n pins st) :=
  (ends_overwriteSector h hs fun _ => b).mono (fun _ _ ⟨_, _, h'⟩ => h') fun _ _ h => h

theorem ends_readView {α : Type} (h : st.Good w n pins) (view : View α) {sector : SectorId}
    (hs : sector.toNat < n) (offset : Nat) :
    Ends (readView view sector offset) st
      (fun a st' => Same w n pins st st' ∧ view.read (st.logical sector) offset = .ok a)
      (Halts w n pins st fun v => view.read (st.logical sector) offset = .error v) := by
  unfold readView
  refine (ends_fetch h hs).bind (fun i st₁ h₁ => ?_) fun _ _ h => .inl h
  obtain ⟨same₁, hi⟩ := h₁
  rw [← same₁.logical]
  exact (ends_readViewSlot same₁.good view hi offset).mono
    (fun a st₂ h₂ => ⟨same₁.trans h₂.1, h₂.2⟩) fun _ _ h => same₁.halts h

theorem ends_modifyView {α : Type} (h : st.Good w n pins) (view : View α) {sector : SectorId}
    (hs : sector.toNat < n) (offset : Nat) (f : α → α) :
    Ends (modifyView view sector offset f) st
      (fun a st' => view.read (st.logical sector) offset = .ok a ∧ Becomes w n pins st st'
        (Function.update st.logical sector
          ((st.logical sector).overlay offset (view.encode (f a)).toArray)))
      (Halts w n pins st fun v => view.read (st.logical sector) offset = .error v) := by
  unfold modifyView
  refine (ends_fetch h hs).bind (fun i st₁ h₁ => ?_) fun _ _ h => .inl h
  obtain ⟨same₁, hi⟩ := h₁
  rw [← same₁.logical]
  exact (ends_modifyViewSlot same₁.good view hi offset f).mono
    (fun _ _ h => ⟨h.1, same₁.becomes h.2⟩) fun _ _ h => same₁.halts h

/-! ## Pins -/

/-- The pins change, and the slots are as before but for what they count. -/
theorem Good.repinned (h : st.Good w n pins) {pins' : List Pin} {capacity i : Nat} {f : Nat → Nat}
    (sound : st'.Sound capacity pins' ∅) (hd : st'.disk = st.disk)
    (hc : st'.cache = st.cache.modifySlot i fun s => { s with pins := f s.pins }) :
    Same w n pins' st st' := by
  refine Good.becomes ⟨h.of_sound sound hd fun s j hj => by rwa [hc] at hj, ?_⟩ hd
  refine logical_congr (fun s => by rw [hc]; rfl) (fun j => bytes_congr ?_) fun s _ => by rw [hd]
  rw [hc, Cache.slot_modifySlot]
  split <;> rfl

theorem Good.pin (h : st.Good w n pins) {sector : SectorId} {i : Nat}
    (hi : st.cache.lookup sector = some i) (hd : st'.disk = st.disk)
    (hc : st'.cache = st.cache.pin i) : Same w n (⟨i, sector⟩ :: pins) st st' :=
  h.repinned (i := i) (f := (· + 1)) (h.sound.pin hi hd hc) hd hc

theorem Good.unpin (h : st.Good w n pins) {p : Pin} (hp : p ∈ pins) (hd : st'.disk = st.disk)
    (hc : st'.cache = st.cache.unpin p.slot) : Same w n (pins.erase p) st st' :=
  h.repinned (i := p.slot) (f := (· - 1)) (h.sound.unpin hp hd hc) hd hc

/-- A pin is given for the sector that was asked for, if that is in the cache. -/
theorem ends_pinResident (h : st.Good w n pins) (sector : SectorId) :
    Ends (pinResident sector) st
      (fun p st' => (∀ q, p = some q → q.sector = sector) ∧ Same w n (p.toList ++ pins) st st')
      fun _ _ => False := by
  unfold pinResident
  refine ends_get_bind ?_
  split
  · exact ends_pure ⟨nofun, h.same⟩
  · next i hi =>
    refine ends_onCache_bind fun st₁ hd hc => ends_pure ⟨fun q hq => ?_, h.pin hi hd hc⟩
    cases hq
    rfl

theorem ends_pin (h : st.Good w n pins) {sector : SectorId} (hs : sector.toNat < n) :
    Ends (pin sector .disk) st
      (fun p st' => p.sector = sector ∧ Same w n (p :: pins) st st')
      (Stops w n pins st) := by
  unfold pin
  refine (ends_fetch h hs).bind (fun i st₁ h₁ => ?_) fun _ _ h => h
  refine ends_onCache_bind fun st₂ hd hc => ends_pure ⟨rfl, ?_⟩
  have pinned := h₁.1.good.pin h₁.2 hd hc
  exact ⟨pinned.good, pinned.logical.trans h₁.1.logical,
    Nat.le_trans h₁.1.failures pinned.failures⟩

theorem ends_unpin (h : st.Good w n pins) {p : Pin} (hp : p ∈ pins) :
    Ends (unpin p) st (fun _ st' => Same w n (pins.erase p) st st') fun _ _ => False :=
  ends_onCache fun _ hd hc => h.unpin hp hd hc

end Storage

end SectorVolume
