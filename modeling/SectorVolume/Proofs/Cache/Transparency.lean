import SectorVolume.Proofs.Cache.Operations

/-!
# A cache cannot be noticed

Whatever is asked of storage behind a cache, in whatever order and with whatever transfers failing:
what is read is the content, a write or a modification that succeeds changes the content in the
bytes that it is about, and nothing else changes the content of any sector. A request that fails
changes nothing, whether the disk failed or a rule of use was broken.
-/

namespace SectorVolume

open SectorVolume.Action

/-- A request to storage behind a cache. Pins come from `search` and `load`. -/
inductive Access : Type 1 where
  | read (sector : SectorId) (offset len : Nat)
  | write (sector : SectorId) (offset : Nat) (bytes : Bytes)
  | readAs (α : Type) (view : View α) (sector : SectorId) (offset : Nat)
  | modifyAs (α : Type) (view : View α) (sector : SectorId) (offset : Nat) (f : α → α)
  | search (sector : SectorId)
  | load (sector : SectorId)
  | readHeld (α : Type) (view : View α) (p : Storage.Pin) (offset : Nat)
  | modifyHeld (α : Type) (view : View α) (p : Storage.Pin) (offset : Nat) (f : α → α)
  | drop (p : Storage.Pin)
  | flushSector (sector : SectorId)
  | flushAll

/-- `after` is `before` with `bytes` written at `offset` of `sector`. -/
structure Overwrites (before after : SectorId → Sector) (sector : SectorId) (offset : Nat)
    (bytes : Bytes) : Prop where
  inside : offset + bytes.size ≤ 512
  written : ∀ (i : Nat) (hi : i < bytes.size), (after sector)[offset + i] = bytes[i]
  kept : ∀ (i : Nat) (hi : i < 512), i < offset ∨ offset + bytes.size ≤ i →
    (after sector)[i] = (before sector)[i]
  others : ∀ s, s ≠ sector → after s = before s

namespace Access

/-- What is answered to a request. -/
def Answer : Access → Type
  | read .. => Bytes
  | write .. => Unit
  | readAs α .. => α
  | modifyAs α .. => α
  | search _ => Option Storage.Pin
  | load _ => Storage.Pin
  | readHeld α .. => α
  | modifyHeld α .. => α
  | drop _ => Unit
  | flushSector _ => Bool
  | flushAll => Nat

/-- Carries a request out. -/
def run : (r : Access) → Action Storage r.Answer
  | read sector offset len => Storage.read sector offset len
  | write sector offset bytes => Storage.write sector offset bytes
  | readAs _ view sector offset => Storage.readView view sector offset
  | modifyAs _ view sector offset f => Storage.modifyView view sector offset f
  | search sector => Storage.pinResident sector
  | load sector => Storage.pin sector .disk
  | readHeld _ view p offset => Storage.readPinned view p offset
  | modifyHeld _ view p offset f => Storage.modifyPinned view p offset f
  | drop p => Storage.unpin p
  | flushSector sector => Storage.flushSector sector
  | flushAll => Storage.flushAll

/-- A pin can be used as long as it is held. -/
def Allowed (held : List Storage.Pin) : Access → Prop
  | readHeld _ _ p _ => p ∈ held
  | modifyHeld _ _ p _ _ => p ∈ held
  | drop p => p ∈ held
  | _ => True

/-- The pins held after a request was answered. -/
def holds (held : List Storage.Pin) : (r : Access) → r.Answer → List Storage.Pin
  | search _, p => Option.toList p ++ held
  | load _, p => p :: held
  | drop p, _ => held.erase p
  | _, _ => held

/-- What an answer says about the content `before` the request, and what the content is `after`
it. -/
def Correct (before after : SectorId → Sector) : (r : Access) → r.Answer → Prop
  | read sector offset len, a =>
    (offset + len ≤ 512 ∧ a = (before sector).slice offset len) ∧ after = before
  | write sector offset bytes, _ => Overwrites before after sector offset bytes
  | readAs _ view sector offset, a => view.read (before sector) offset = .ok a ∧ after = before
  | modifyAs _ view sector offset f, a =>
    view.read (before sector) offset = .ok a ∧
      Overwrites before after sector offset (view.encode (f a)).toArray
  | readHeld _ view p offset, a => view.read (before p.sector) offset = .ok a ∧ after = before
  | modifyHeld _ view p offset f, a =>
    view.read (before p.sector) offset = .ok a ∧
      Overwrites before after p.sector offset (view.encode (f a)).toArray
  | search sector, a => (∀ p ∈ Option.toList a, p.sector = sector) ∧ after = before
  | load sector, p => Storage.Pin.sector p = sector ∧ after = before
  | drop _, _ => after = before
  | flushSector _, _ => after = before
  | flushAll, _ => after = before

end Access

namespace Storage

/-- The storage `st`, of which `held` are pinned, is what requests can make of an empty cache in
front of a disk. A request that fails leaves the pins as they are. -/
inductive Reachable (capacity : Nat) (disk : Disk) (log : Log) : Storage → List Pin → Prop
  | start {cache : Cache} : Cache.create capacity = .ok cache →
      Reachable capacity disk log ⟨disk, cache, log⟩ []
  | answered {st st' : Storage} {held : List Pin} (r : Access) {a : r.Answer} :
      Reachable capacity disk log st held → r.Allowed held → r.run st = .ok a st' →
      Reachable capacity disk log st' (r.holds held a)
  | failed {st st' : Storage} {held : List Pin} (r : Access) {e : Failure} :
      Reachable capacity disk log st held → r.Allowed held → r.run st = .error e st' →
      Reachable capacity disk log st' held

end Storage

theorem overwrites_update (before : SectorId → Sector) (sector : SectorId) {offset : Nat}
    {bytes : Bytes} (h : offset + bytes.size ≤ 512) :
    Overwrites before (Function.update before sector ((before sector).overlay offset bytes)) sector
      offset bytes := by
  refine ⟨h, fun i hi => ?_, fun i hi out => ?_, fun s hs => Function.update_of_ne hs ..⟩
  · rw [Function.update_self, Sector.getElem_overlay_of_mem _ (by omega) (by omega) (by omega)]
    exact getElem_congr_idx (by omega)
  · rw [Function.update_self, Sector.getElem_overlay_of_not_mem _ hi out]

theorem View.inside_of_read {α : Type} {view : View α} {s : Sector} {offset : Nat} {a : α}
    (h : view.read s offset = .ok a) : offset + view.size ≤ 512 := by
  unfold View.read View.bytes at h
  by_contra hi
  rw [dif_neg hi] at h
  split at h <;> cases h

namespace Access

variable {st : Storage} {held : List Storage.Pin}

theorem overwrites_of_modified {α : Type} {view : View α} {before after : SectorId → Sector}
    {sector : SectorId} {offset : Nat} {a b : α} (h : view.read (before sector) offset = .ok a)
    (e : after = Function.update before sector
      ((before sector).overlay offset (view.encode b).toArray)) :
    Overwrites before after sector offset (view.encode b).toArray := by
  rw [e]
  refine overwrites_update before sector ?_
  rw [Vector.size_toArray]
  exact View.inside_of_read h

/-- A request is answered from the content, and one that fails leaves the content alone. The cache
stays well-formed and true to the disk. -/
theorem ends_run (h : st.Good False wordRange32 held) (r : Access) (hr : r.Allowed held) :
    Ends r.run st
      (fun a st' => st'.Good False wordRange32 (r.holds held a) ∧
        r.Correct st.logical st'.logical a)
      fun _ st' => Storage.Same False wordRange32 held st st' := by
  cases r with
  | read sector offset len =>
    refine (Storage.ends_read h sector.toNat_lt offset len).mono (fun a st' h' => ?_)
      fun _ _ h' => h'.same
    exact ⟨h'.1.good, h'.2, h'.1.logical⟩
  | write sector offset bytes =>
    refine (Storage.ends_write h sector.toNat_lt offset bytes).mono (fun a st' h' => ?_)
      fun _ _ h' => h'.same
    obtain ⟨inside, changed⟩ := h'
    refine ⟨changed.good, ?_⟩
    show Overwrites st.logical st'.logical sector offset bytes
    rw [changed.logical]
    exact overwrites_update _ _ inside
  | readAs α view sector offset =>
    refine (Storage.ends_readView h view sector.toNat_lt offset).mono (fun a st' h' => ?_)
      fun _ _ h' => h'.same
    exact ⟨h'.1.good, h'.2, h'.1.logical⟩
  | modifyAs α view sector offset f =>
    refine (Storage.ends_modifyView h view sector.toNat_lt offset f).mono (fun a st' h' => ?_)
      fun _ _ h' => h'.same
    obtain ⟨read, changed⟩ := h'
    exact ⟨changed.good, read, overwrites_of_modified read changed.logical⟩
  | search sector =>
    refine (Storage.ends_pinResident h sector).mono (fun a st' h' => ?_) fun _ _ h' => h'.elim
    exact ⟨h'.2.good, fun p hp => h'.1 p (Option.mem_toList.1 hp), h'.2.logical⟩
  | load sector =>
    refine (Storage.ends_pin h sector.toNat_lt).mono (fun a st' h' => ?_) fun _ _ h' => h'.2
    exact ⟨h'.2.good, h'.1, h'.2.logical⟩
  | readHeld α view p offset =>
    refine (Storage.ends_readViewSlot h view (h.kept p hr) offset).mono (fun a st' h' => ?_)
      fun _ _ h' => h'.same
    exact ⟨h'.1.good, h'.2, h'.1.logical⟩
  | modifyHeld α view p offset f =>
    refine (Storage.ends_modifyViewSlot h view (h.kept p hr) offset f).mono (fun a st' h' => ?_)
      fun _ _ h' => h'.same
    obtain ⟨read, changed⟩ := h'
    exact ⟨changed.good, read, overwrites_of_modified read changed.logical⟩
  | drop p =>
    refine (Storage.ends_unpin h hr).mono (fun a st' h' => ?_) fun _ _ h' => h'.elim
    exact ⟨h'.good, h'.logical⟩
  | flushSector sector =>
    refine (Storage.ends_flushSector h sector).mono (fun a st' h' => ?_) fun _ _ h' => h'.2
    exact ⟨h'.good, h'.logical⟩
  | flushAll =>
    refine (Storage.ends_flushAll h).mono (fun a st' h' => ?_) fun _ _ h' => h'.2
    exact ⟨h'.good, h'.logical⟩

end Access

namespace Storage

variable {capacity : Nat} {disk : Disk} {log : Log} {st : Storage} {held : List Pin}

theorem Reachable.good (h : Reachable capacity disk log st held) :
    st.Good False wordRange32 held := by
  induction h with
  | start hc => exact (good_of_create hc False.elim).1
  | answered r _ hr e ih => exact ((r.ends_run ih hr).ok e).1
  | failed r _ hr e ih => exact ((r.ends_run ih hr).error e).good

/-- In every state that requests can lead to, whatever transfers failed on the way, a request is
answered from the content and has its effect on the content only; one that fails has none. -/
theorem run_transparent (h : Reachable capacity disk log st held) (r : Access)
    (hr : r.Allowed held) :
    Ends r.run st (fun a st' => r.Correct st.logical st'.logical a)
      fun _ st' => st'.logical = st.logical :=
  (r.ends_run h.good hr).mono (fun _ _ h' => h'.2) fun _ _ h' => h'.logical

/-- In front of a memory disk a sector can be pinned, and changed through its pin. -/
theorem run_transparent_of_pinned :
    ∃ st p, p.sector = 3 ∧ Reachable 1 (Disk.memory 8) {} st [p] ∧
      Ends (Access.modifyHeld UInt32 View.word32 p 8 (· + 1)).run st
        (fun a st' => (Access.modifyHeld UInt32 View.word32 p 8 (· + 1)).Correct st.logical
          st'.logical a) fun _ st' => st'.logical = st.logical := by
  have works : True → (Disk.memory 8).Working 8 := fun _ => ⟨nofun, by decide, rfl⟩
  obtain ⟨cache, hc⟩ : ∃ cache, Cache.create 1 = .ok cache := ⟨_, rfl⟩
  have good : (⟨Disk.memory 8, cache, {}⟩ : Storage).Good True 8 [] := (good_of_create hc works).1
  have loading := ends_pin good (by decide : (3 : SectorId).toNat < 8)
  cases e : pin 3 .disk ⟨Disk.memory 8, cache, {}⟩ with
  | error e' st => exact absurd trivial (loading.error e).not_working
  | ok p st =>
    have held : Reachable 1 (Disk.memory 8) {} st [p] := .answered (.load 3) (.start hc) trivial e
    exact ⟨st, p, (loading.ok e).1, held, run_transparent held _ (List.mem_singleton.2 rfl)⟩

end Storage

end SectorVolume
