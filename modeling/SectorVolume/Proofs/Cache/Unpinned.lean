import SectorVolume.Proofs.Cache.Operations

/-!
# Storage without pins

When nothing is pinned, an operation of the storage that keeps the rules of use fails only because
the disk does, and the failed transfer is counted. These are the statements that the layers above
build on.
-/

namespace SectorVolume

namespace Storage

open SectorVolume.Action

variable {w : Prop} {n : Nat} {st st' : Storage} {α : Type}

/-- The disk failed although nothing says that it works, and nothing changed. -/
def Breaks (w : Prop) (n : Nat) (st : Storage) (c : Fault) (st' : Storage) : Prop :=
  (∃ cause, c = .device cause) ∧ ¬ w ∧ st.disk.failures < st'.disk.failures ∧ Same w n [] st st'

theorem Same.breaks {c : Fault} {st'' : Storage} (h : Same w n [] st st')
    (h' : Breaks w n st' c st'') : Breaks w n st c st'' :=
  ⟨h'.1, h'.2.1, Nat.lt_of_le_of_lt h.failures h'.2.2.1, h.trans h'.2.2.2⟩

theorem Stops.breaks {e : Failure} (h : Stops w n [] st e st') :
    ∃ c, e = .fault c ∧ Breaks w n st c st' := by
  obtain ⟨⟨-, no⟩ | ⟨⟨cause, rfl⟩, idle, more⟩, same⟩ := h
  · exact absurd rfl no
  · exact ⟨_, rfl, ⟨cause, rfl⟩, idle, more, same⟩

theorem meets_of_stops {x : Action Storage α} {d : α → Storage → Prop}
    (h : Ends x st d (Stops w n [] st)) : Meets x st d (Breaks w n st) :=
  .of_ends h fun _ _ h => h.breaks

theorem meets_of_halts {x : Action Storage α} {d : α → Storage → Prop}
    {refused : Violation → Prop} (h : Ends x st d (Halts w n [] st refused))
    (never : ∀ v, ¬ refused v) : Meets x st d (Breaks w n st) := by
  refine .of_ends h fun e st' h => ?_
  rcases h with stops | ⟨⟨v, -, refused⟩, -⟩
  · exact stops.breaks
  · exact absurd refused (never v)

theorem meets_note (h : st.Good w n []) (e : Event) {f : Fault → Storage → Prop} :
    Meets (note e) st (fun _ st' => Same w n [] st st') f :=
  .of_ends (F := fun _ _ => False) (ends_note fun _ hd hc => h.same_of_disk_of_cache hd hc)
    fun _ _ no => no.elim

theorem meets_read (h : st.Good w n []) {sector : SectorId} (hs : sector.toNat < n)
    {offset len : Nat} (hr : offset + len ≤ 512) :
    Meets (read sector offset len) st
      (fun b st' => Same w n [] st st' ∧ b = (st.logical sector).slice offset len)
      (Breaks w n st) :=
  (meets_of_halts (ends_read h hs offset len) fun _ no => no hr).mono
    (fun _ _ h => ⟨h.1, h.2.2⟩) fun _ _ h => h

theorem meets_write (h : st.Good w n []) {sector : SectorId} (hs : sector.toNat < n)
    {offset : Nat} {bytes : Bytes} (hr : offset + bytes.size ≤ 512) :
    Meets (write sector offset bytes) st
      (fun _ st' => Becomes w n [] st st'
        (Function.update st.logical sector ((st.logical sector).overlay offset bytes)))
      (Breaks w n st) :=
  (meets_of_halts (ends_write h hs offset bytes) fun _ no => no hr).mono
    (fun _ _ h => h.2) fun _ _ h => h

theorem ofBytes_toArray (s : Sector) : Sector.ofBytes s.toArray = s := by
  refine Vector.ext fun i hi => ?_
  simp [Sector.ofBytes, Array.getD_eq_getD_getElem?]

theorem meets_writeWhole (h : st.Good w n []) {sector : SectorId} (hs : sector.toNat < n)
    (b : Sector) :
    Meets (write sector 0 b.toArray) st
      (fun _ st' => Becomes w n [] st st' (Function.update st.logical sector b))
      (Breaks w n st) := by
  have size : b.toArray.size = 512 := b.size_toArray
  have inside : 0 + b.toArray.size ≤ 512 := Nat.le_of_eq ((Nat.zero_add _).trans size)
  have written := meets_write h hs inside
  rwa [overlay_whole _ size, ofBytes_toArray] at written

theorem meets_writeZeros (h : st.Good w n []) {sector : SectorId} (hs : sector.toNat < n) :
    Meets (writeZeros sector) st
      (fun _ st' => Becomes w n [] st st' (Function.update st.logical sector Sector.zero))
      (Breaks w n st) := by
  unfold writeZeros
  exact meets_writeWhole h hs Sector.zero

theorem meets_readSector (h : st.Good w n []) {sector : SectorId} (hs : sector.toNat < n) :
    Meets (readSector sector) st (fun b st' => Same w n [] st st' ∧ b = st.logical sector)
      (Breaks w n st) := meets_of_stops (ends_readSector h hs)

theorem meets_modifySector (h : st.Good w n []) {sector : SectorId} (hs : sector.toNat < n)
    {f : Sector → Except Violation (α × Sector)} {a : α} {b : Sector}
    (hf : f (st.logical sector) = .ok (a, b)) :
    Meets (modifySector sector f) st
      (fun a' st' => a' = a ∧ Becomes w n [] st st' (Function.update st.logical sector b))
      (Breaks w n st) := by
  refine (meets_of_halts (ends_modifySector h hs f) fun v no => ?_).mono (fun a' st' h' => ?_)
    fun _ _ h => h
  · rw [hf] at no
    cases no
  · obtain ⟨b', e, changed⟩ := h'
    rw [hf] at e
    cases e
    exact ⟨rfl, changed⟩

theorem meets_replaceSector (h : st.Good w n []) {sector : SectorId} (hs : sector.toNat < n)
    (b : Sector) :
    Meets (replaceSector sector b) st
      (fun _ st' => Becomes w n [] st st' (Function.update st.logical sector b))
      (Breaks w n st) := meets_of_stops (ends_replaceSector h hs b)

theorem meets_overwriteSector (h : st.Good w n []) {sector : SectorId} (hs : sector.toNat < n)
    (f : Sector → Sector) :
    Meets (do
        let i ← fetch sector .blank
        onCache fun c => c.store i (f (c.bytes i))) st
      (fun _ st' => ∃ b, (b = st.logical sector ∨ b = Sector.zero) ∧
        Becomes w n [] st st' (Function.update st.logical sector (f b)))
      (Breaks w n st) := meets_of_stops (ends_overwriteSector h hs f)

theorem meets_readView (h : st.Good w n []) {view : View α} {sector : SectorId}
    (hs : sector.toNat < n) {offset : Nat} {a : α}
    (ha : view.read (st.logical sector) offset = .ok a) :
    Meets (readView view sector offset) st (fun a' st' => a' = a ∧ Same w n [] st st')
      (Breaks w n st) := by
  refine (meets_of_halts (ends_readView h view hs offset) fun v no => ?_).mono (fun a' st' h' => ?_)
    fun _ _ h => h
  · rw [ha] at no
    cases no
  · rw [ha] at h'
    exact ⟨(Except.ok.inj h'.2).symm, h'.1⟩

theorem meets_flushAll (h : st.Good w n []) :
    Meets flushAll st (fun _ st' => Same w n [] st st') (Breaks w n st) :=
  meets_of_stops (ends_flushAll h)

theorem meets_flushSector (h : st.Good w n []) (sector : SectorId) :
    Meets (flushSector sector) st (fun _ st' => Same w n [] st st') (Breaks w n st) :=
  meets_of_stops (ends_flushSector h sector)

end Storage

end SectorVolume
