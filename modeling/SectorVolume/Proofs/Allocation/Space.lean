import SectorVolume.Allocation.Space
import SectorVolume.Proofs.Allocation.Marking

/-!
# Spaces

Storage with an allocator, told in terms of its stock. Whichever allocator there is: it hands out
free sectors, every one at most once, and takes back those that are held. What the storage does
leaves the free sectors alone as long as it stays away from those that the allocator keeps.
-/

namespace SectorVolume

open SectorVolume.Action

namespace Space

variable {sp : Space} {α : Type}

theorem onStorage_of_ok {x : Action Storage α} {st st' : Storage} {a : α} (run : x st = .ok a st')
    (al : Allocator) : onStorage x ⟨st, al⟩ = .ok a ⟨st', al⟩ := by
  unfold onStorage
  simp only [run]

theorem onStorage_of_error {x : Action Storage α} {st st' : Storage} {e : Failure}
    (run : x st = .error e st') (al : Allocator) : onStorage x ⟨st, al⟩ = .error e ⟨st', al⟩ := by
  unfold onStorage
  simp only [run]

theorem onStorage_bind {β : Type} (x : Action Storage α) (k : α → Action Storage β) :
    onStorage (x >>= k) = onStorage x >>= fun a => onStorage (k a) := by
  funext ⟨storage, allocator⟩
  cases e : x storage with
  | ok a st =>
    have left : (x >>= k) storage = k a st := run_bind e rfl
    rw [run_bind (onStorage_of_ok e allocator) rfl, onStorage, left]
    rfl
  | error f st =>
    rw [run_bind_error (onStorage_of_error e allocator)]
    exact onStorage_of_error (run_bind_error e) allocator

theorem meets_lift {x : Action Storage α} {d : α → Storage → Prop} {f : Fault → Storage → Prop}
    (hx : Meets x sp.storage d f) :
    Meets (onStorage x) sp (fun a sp' => d a sp'.storage ∧ sp'.allocator = sp.allocator)
      fun c sp' => f c sp'.storage ∧ sp'.allocator = sp.allocator := by
  obtain ⟨storage, allocator⟩ := sp
  unfold Meets Ends onStorage at *
  simp only at hx ⊢
  cases e : x storage with
  | ok a st =>
    rw [e] at hx
    exact ⟨hx, rfl⟩
  | error e' st =>
    rw [e] at hx
    obtain ⟨c, rfl, hc⟩ := hx
    exact ⟨c, rfl, hc, rfl⟩

end Space

variable [Promise]

namespace Allocator

/-- Whether a sector is free, for the content `L`. -/
def free (L : SectorId → Sector) (id : SectorId) : Allocator → Prop
  | .bitmap m => id.toNat < m.sectors * 4096 ∧ m.bit L id.toNat = false
  | .supplied supplier memory => id ∈ supplier.free memory

/-- Whether the allocator keeps a sector for itself. -/
def own (s : SectorId) : Allocator → Prop
  | .bitmap m => m.Holds s
  | .supplied _ _ => False

/-- The number of the first sector that is not managed. -/
def bound : Allocator → Nat
  | .bitmap m => m.total
  | .supplied _ _ => wordRange32

/-- A bitmap has room for its bits and manages sectors that the disk has, and an allocator from
outside has no sector free twice. -/
def Valid : Allocator → Prop
  | .bitmap m => m.Placed Promise.sectors ∧ m.total < wordRange32 ∧ m.total ≤ Promise.sectors
  | .supplied supplier memory => (supplier.free memory).Nodup

theorem free_congr {al : Allocator} {L L' : SectorId → Sector} (h : al.Valid)
    (hL : ∀ s, al.own s → L' s = L s) (id : SectorId) : al.free L' id ↔ al.free L id := by
  cases al with
  | supplied supplier memory => exact Iff.rfl
  | bitmap m =>
    refine and_congr_right fun lt => ?_
    rw [FreeMap.bit_congr hL h.1.stands lt]

end Allocator

namespace Space

variable {sp sp' : Space} {α : Type}

/-- What the space has to offer. -/
def stock (sp : Space) : Stock where
  content := sp.storage.logical
  free := fun id => sp.allocator.free sp.storage.logical id
  own := fun s => sp.allocator.own s
  bound := sp.allocator.bound
  failures := sp.storage.disk.failures

/-- The storage is good, and all free sectors are for users. -/
structure Sound (sp : Space) : Prop where
  storage : sp.storage.Good Promise.works Promise.sectors []
  allocator : sp.allocator.Valid
  usable : ∀ id, sp.stock.free id → sp.stock.Usable id

theorem Sound.clean (h : sp.Sound) (works : Promise.works) : sp.stock.failures = 0 :=
  (h.storage.working works).clean

/-- On a disk that works no transfer fails. -/
theorem Sound.steady (h : sp.Sound) (h' : sp'.Sound) (works : Promise.works) :
    sp'.stock.failures = sp.stock.failures := (h'.clean works).trans (h.clean works).symm

theorem Sound.not_broke (h : sp'.Sound) (works : Promise.works) {a : Stock} {c : Fault} :
    ¬ Stock.Broke a sp'.stock c := fun broke => by
  have failed := broke.2
  rw [h.clean works] at failed
  exact Nat.not_lt_zero _ failed

/-- After `sp` came `sp'`, with the content `L` and the same free sectors. -/
structure Rewrites (sp sp' : Space) (L : SectorId → Sector) : Prop where
  sound : sp'.Sound
  stock : sp'.stock = { sp.stock with content := L, failures := sp'.stock.failures }
  failures : sp.stock.failures ≤ sp'.stock.failures

/-- Nothing changed but that transfers may have failed. -/
abbrev Rests (sp sp' : Space) : Prop := sp.Rewrites sp' sp.stock.content

theorem Rewrites.content {L : SectorId → Sector} (h : sp.Rewrites sp' L) : sp'.stock.content = L := by
  rw [h.stock]

theorem Rewrites.took {L : SectorId → Sector} {X : SectorId → Prop} (h : sp.Rewrites sp' L)
    (hX : ∀ s, ¬ sp.stock.own s → ¬ X s → L s = sp.stock.content s) :
    Stock.Took X [] sp.stock sp'.stock := by
  have failures := h.failures
  rw [h.stock] at failures ⊢
  exact ⟨⟨rfl, rfl, failures⟩, List.nodup_nil, nofun, fun _ hf => ⟨hf, List.not_mem_nil⟩,
    fun _ _ hf _ => hf, fun s _ => hX s, fun s _ ho hs => .inl (hX s ho hs)⟩

theorem Rests.took {X : SectorId → Prop} (h : sp.Rests sp') :
    Stock.Took X [] sp.stock sp'.stock := Rewrites.took h fun _ _ _ => rfl

theorem Rewrites.stopped {L : SectorId → Sector} {n : Nat} {a : Stock} {c : Fault}
    (h : sp.Rewrites sp' L) (h' : Stock.Stopped n a sp.stock c) : Stock.Stopped n a sp'.stock c :=
  h'.of_free h.failures fun id hid => by
    rw [h.stock] at hid
    exact hid

theorem Rests.gave (h : sp.Rests sp') : Stock.Gave [] sp.stock sp'.stock := by
  have failures := h.failures
  rw [h.stock] at failures ⊢
  exact ⟨⟨rfl, rfl, failures⟩, fun _ hf => hf, fun _ hf => .inl hf,
    fun _ _ hid => (List.not_mem_nil hid).elim, fun _ _ => rfl⟩

theorem Sound.rests (h : sp.Sound) : sp.Rests sp := ⟨h, rfl, Nat.le_refl _⟩

theorem Rests.rewrites {sp'' : Space} {L : SectorId → Sector} (h : sp.Rests sp')
    (h' : sp'.Rewrites sp'' L) : sp.Rewrites sp'' L := by
  refine ⟨h'.sound, ?_, Nat.le_trans h.failures h'.failures⟩
  rw [h'.stock, h.stock]

theorem Rewrites.rests {sp'' : Space} {L : SectorId → Sector} (h : sp.Rewrites sp' L)
    (h' : sp'.Rests sp'') : sp.Rewrites sp'' L := by
  refine ⟨h'.sound, ?_, Nat.le_trans h.failures h'.failures⟩
  rw [h'.stock, h.stock]

/-- The disk failed and nothing changed. -/
def Fails (sp : Space) (c : Fault) (sp' : Space) : Prop :=
  sp.Rests sp' ∧ Stock.Broke sp.stock sp'.stock c

theorem Rests.fails {sp'' : Space} {c : Fault} (h : sp.Rests sp') (h' : sp'.Fails c sp'') :
    sp.Fails c sp'' :=
  have rests := h.rewrites h'.1
  ⟨⟨rests.sound, by rw [rests.stock, h.content], rests.failures⟩, h'.2.1,
    Nat.lt_of_le_of_lt h.failures h'.2.2⟩

/-! ## Actions of the storage -/

theorem Sound.rewrites (h : sp.Sound) {L : SectorId → Sector}
    (hL : ∀ s, sp.stock.own s → L s = sp.stock.content s)
    (hb : Storage.Becomes Promise.works Promise.sectors [] sp.storage sp'.storage L)
    (ha : sp'.allocator = sp.allocator) : sp.Rewrites sp' L := by
  have free : (fun id => sp.allocator.free L id) = sp.stock.free :=
    funext fun id => propext (Allocator.free_congr h.allocator hL id)
  have stock : sp'.stock =
      { sp.stock with content := L, failures := sp'.storage.disk.failures } := by
    rw [Space.stock, hb.logical, ha, free]
    rfl
  refine ⟨⟨hb.good, ha ▸ h.allocator, fun id hid => ?_⟩, stock, hb.failures⟩
  rw [stock] at hid ⊢
  exact h.usable id hid

/-- An action of the storage that changes no sector of the allocator. -/
theorem meets_onStorage (h : sp.Sound) {x : Action Storage α} {d : α → Prop}
    {L : SectorId → Sector} (hL : ∀ s, sp.stock.own s → L s = sp.stock.content s)
    (hx : Meets x sp.storage (fun a st => d a ∧ Storage.Becomes Promise.works Promise.sectors [] sp.storage st L)
      (Storage.Breaks Promise.works Promise.sectors sp.storage)) :
    Meets (onStorage x) sp (fun a sp' => d a ∧ sp.Rewrites sp' L) sp.Fails := by
  refine (meets_lift hx).mono (fun a sp₁ h₁ => ?_) fun c sp₁ h₁ => ?_
  · exact ⟨h₁.1.1, h.rewrites hL h₁.1.2 h₁.2⟩
  · obtain ⟨⟨device, -, failed, same⟩, ha⟩ := h₁
    exact ⟨h.rewrites (fun _ _ => rfl) same ha, device, failed⟩

/-- An action of the storage that only looks at the content. -/
theorem meets_onStorage_rests (h : sp.Sound) {x : Action Storage α} {d : α → Prop}
    (hx : Meets x sp.storage
      (fun a st => Storage.Same Promise.works Promise.sectors [] sp.storage st ∧ d a)
      (Storage.Breaks Promise.works Promise.sectors sp.storage)) :
    Meets (onStorage x) sp (fun a sp' => d a ∧ sp.Rests sp') sp.Fails :=
  meets_onStorage h (fun _ _ => rfl) (hx.mono (fun _ _ h => ⟨h.2, h.1⟩) fun _ _ h => h)

theorem meets_note (h : sp.Sound) (e : Event) {f : Fault → Space → Prop} :
    Meets (onStorage (Storage.note e)) sp (fun _ sp' => sp.Rests sp') f :=
  (meets_lift (Storage.meets_note h.storage e (f := fun _ _ => False))).mono
    (fun _ _ h₁ => h.rewrites (fun _ _ => rfl) h₁.1 h₁.2) fun _ _ no => no.1.elim

/-- An action of the storage that replaces one sector. -/
theorem meets_onStorage_put (h : sp.Sound) {x : Action Storage α} {id : SectorId} {b : Sector}
    (hs : ¬ sp.stock.own id)
    (hx : Meets x sp.storage (fun _ st => Storage.Becomes Promise.works Promise.sectors [] sp.storage st
        (Function.update sp.storage.logical id b))
      (Storage.Breaks Promise.works Promise.sectors sp.storage)) :
    Meets (onStorage x) sp (fun _ sp' => sp.Rewrites sp' (Function.update sp.stock.content id b))
      sp.Fails := by
  refine (meets_onStorage h (d := fun _ => True) (fun s own => ?_)
    (hx.mono (fun _ _ h => ⟨trivial, h⟩) fun _ _ h => h)).mono (fun _ _ h => h.2) fun _ _ h => h
  refine Function.update_of_ne ?_ ..
  rintro rfl
  exact hs own

/-- Only the sector that was replaced changed. -/
theorem Rewrites.took_put {id : SectorId} {b : Sector} {X : SectorId → Prop}
    (h : sp.Rewrites sp' (Function.update sp.stock.content id b))
    (hX : X id) : Stock.Took X [] sp.stock sp'.stock := by
  refine h.took fun s _ notin => Function.update_of_ne ?_ ..
  rintro rfl
  exact notin hX

/-- Nothing changed but the sector that was replaced. -/
theorem Rewrites.took_of_put {id : SectorId} {b : Sector}
    (h : sp.Rewrites sp' (Function.update sp.stock.content id b)) :
    Stock.Took Stock.nowhere [] (sp.stock.put id b) sp'.stock := by
  have failures := h.failures
  rw [h.stock] at failures ⊢
  exact ⟨⟨rfl, rfl, failures⟩, List.nodup_nil, nofun, fun _ hf => ⟨hf, List.not_mem_nil⟩,
    fun _ _ hf _ => hf, fun _ _ _ _ => rfl, fun _ _ _ _ => .inl rfl⟩

/-! ## The allocator -/

theorem Sound.of_took {X : SectorId → Prop} {ids : List SectorId} (h : sp.Sound)
    (took : Stock.Took X ids sp.stock sp'.stock)
    (storage : sp'.storage.Good Promise.works Promise.sectors []) (allocator : sp'.allocator.Valid) :
    sp'.Sound :=
  ⟨storage, allocator, fun id hid => took.usable.2 (h.usable id (took.left id hid).1)⟩

theorem Sound.of_gave {ids : List SectorId} (h : sp.Sound) (gave : Stock.Gave ids sp.stock sp'.stock)
    (held : ∀ id ∈ ids, sp.stock.Held id) (storage : sp'.storage.Good Promise.works Promise.sectors [])
    (allocator : sp'.allocator.Valid) : sp'.Sound := by
  refine ⟨storage, allocator, fun id hid => gave.usable.2 ?_⟩
  rcases gave.back id hid with hid | hid
  · exact h.usable id hid
  · exact (held id hid).1

/-- All sectors that were asked for are handed out, or none. -/
theorem meets_allocate (h : sp.Sound) {count : Nat} (listable : FreeMap.Listable count) :
    Meets (allocate count) sp
      (fun ids sp' => sp'.Sound ∧ ids.length = count ∧ Stock.Takes ids sp.stock sp'.stock)
      fun c sp' => sp'.Sound ∧ Stock.Takes [] sp.stock sp'.stock ∧
        Stock.Denies count sp.stock sp'.stock c := by
  obtain ⟨storage, al⟩ := sp
  unfold allocate
  refine meets_get ?_
  cases al with
  | bitmap m =>
    refine (meets_lift (FreeMap.meets_allocate_stock h.allocator.1 h.storage listable)).mono
      (fun ids sp₁ h₁ => ?_) fun c sp₁ h₁ => ?_
    · obtain ⟨st₁, al₁⟩ := sp₁
      obtain ⟨⟨good, length, took⟩, rfl⟩ := h₁
      exact ⟨h.of_took took.toTook good h.allocator, length, took⟩
    · obtain ⟨st₁, al₁⟩ := sp₁
      obtain ⟨⟨good, took, why⟩, rfl⟩ := h₁
      exact ⟨h.of_took took.toTook good h.allocator, took, why⟩
  | supplied supplier memory =>
    simp only
    have nodup : (supplier.free memory).Nodup := h.allocator
    cases e : supplier.take? memory count with
    | none =>
      exact meets_fail ⟨h, .refl _, .inl ⟨rfl, .inl (Stock.short_of_subset (fun _ free => free)
        (supplier.refused memory count e))⟩⟩
    | some r =>
      obtain ⟨ids, memory'⟩ := r
      obtain ⟨length, split⟩ := supplier.taken memory count ids memory' e
      have nodup := split.nodup nodup
      have disjoint := List.disjoint_of_nodup_append nodup
      have took : Stock.Takes ids (⟨storage, .supplied supplier memory⟩ : Space).stock
          (⟨storage, .supplied supplier memory'⟩ : Space).stock := by
        refine ⟨⟨⟨rfl, rfl, Nat.le_refl _⟩, nodup.of_append_left, fun id hid => ?_,
          fun id hid => ⟨?_, fun hid' => ?_⟩, fun _ id hid notin => ?_, fun _ _ _ _ => rfl,
          fun _ _ _ _ => .inl rfl⟩, fun _ _ => rfl⟩
        · exact split.mem_iff.2 (List.mem_append_left _ hid)
        · exact split.mem_iff.2 (List.mem_append_right _ hid)
        · exact disjoint hid' hid
        · exact (List.mem_append.1 (split.mem_iff.1 hid)).resolve_left notin
      refine meets_modify (meets_pure ⟨?_, length, took⟩)
      exact h.of_took took.toTook h.storage nodup.of_append_right

omit [Promise] in
/-- A bitmap does not begin a list beyond all memory. -/
theorem allocate_of_not_listable {m : FreeMap} {count : Nat} (bitmap : sp.allocator = .bitmap m)
    (h : ¬ FreeMap.Listable count) : allocate count sp = .error (.violation .tooManyIds) sp := by
  obtain ⟨storage, al⟩ := sp
  obtain rfl : al = .bitmap m := bitmap
  show onStorage (m.allocate count) ⟨storage, .bitmap m⟩ = _
  unfold onStorage
  simp only
  rw [FreeMap.allocate_of_not_listable h]

/-- The sectors that the allocator hands out when it is asked for `count` of them. -/
def drawn (sp : Space) (count : Nat) : List SectorId :=
  match allocate count sp with
  | .ok ids _ => ids
  | .error _ _ => []

omit [Promise] in
theorem drawn_eq {count : Nat} {ids : List SectorId} (e : allocate count sp = .ok ids sp') :
    sp.drawn count = ids := by
  unfold drawn
  rw [e]

/-- What is handed out is free. -/
theorem free_of_drawn (h : sp.Sound) {count : Nat} (listable : FreeMap.Listable count)
    {id : SectorId} (hid : id ∈ sp.drawn count) : sp.stock.free id := by
  unfold drawn at hid
  cases e : allocate count sp with
  | ok ids sp' =>
    rw [e] at hid
    exact ((meets_allocate h listable).ok e).2.2.free id hid
  | error f sp' =>
    rw [e] at hid
    exact absurd hid List.not_mem_nil

/-- A sector that is held can be given back. -/
theorem meets_releaseOne (h : sp.Sound) {id : SectorId} (held : sp.stock.Held id) :
    Meets (release id 1) sp
      (fun _ sp' => sp'.Sound ∧ Stock.Gave [id] sp.stock sp'.stock ∧ sp'.stock.free id)
      fun c sp' => sp'.Sound ∧ Stock.Gave [] sp.stock sp'.stock ∧
        Stock.Broke sp.stock sp'.stock c := by
  obtain ⟨storage, al⟩ := sp
  have only : ∀ id' ∈ [id], (⟨storage, al⟩ : Space).stock.Held id' := by
    intro id' hid'
    rw [List.mem_singleton.1 hid']
    exact held
  unfold release
  refine meets_get ?_
  cases al with
  | bitmap m =>
    obtain ⟨placed, small, -⟩ := h.allocator
    have lt : id.toNat < m.total := held.1.2.2.1
    have total := placed.total
    have e : wordRange32 = 2 ^ 32 := rfl
    refine (meets_lift (FreeMap.meets_releaseOne placed h.storage (by omega) (by omega)
      held.2)).mono (fun _ sp₁ h₁ => ?_) fun c sp₁ h₁ => ?_
    · obtain ⟨st₁, al₁⟩ := sp₁
      obtain ⟨⟨good, gave, free⟩, rfl⟩ := h₁
      exact ⟨h.of_gave gave only good h.allocator, gave, free⟩
    · obtain ⟨st₁, al₁⟩ := sp₁
      obtain ⟨breaks, rfl⟩ := h₁
      have gave := FreeMap.gave_of_same (m := m) breaks.2.2.2
      exact ⟨h.of_gave gave nofun breaks.2.2.2.good h.allocator, gave, breaks.1, breaks.2.2.1⟩
  | supplied supplier memory =>
    have lt := id.toNat_lt
    have e₁ : 1 % wordRange32 = 1 := rfl
    have e₂ : wordRange32 = 2 ^ 32 := rfl
    have returned : (List.range (min 1 (wordRange32 - id.toNat))).map
        (fun i => UInt32.ofNat (id.toNat + i)) = [id] := by
      rw [Nat.min_eq_left (by omega)]
      simp [List.range_succ]
    have nodup : (id :: supplier.free memory).Nodup := List.nodup_cons.2 ⟨held.2, h.allocator⟩
    have given : (supplier.free (supplier.give memory [id])).Perm (id :: supplier.free memory) :=
      supplier.given memory [id] nodup
    have free : id ∈ supplier.free (supplier.give memory [id]) :=
      given.mem_iff.2 List.mem_cons_self
    have gave : Stock.Gave [id] (⟨storage, .supplied supplier memory⟩ : Space).stock
        (⟨storage, .supplied supplier (supplier.give memory [id])⟩ : Space).stock := by
      refine ⟨⟨rfl, rfl, Nat.le_refl _⟩, fun id' hid' => ?_, fun id' hid' => ?_,
        fun _ id' hid' => ?_, fun _ _ => rfl⟩
      · exact given.mem_iff.2 (List.mem_cons_of_mem _ hid')
      · refine (List.mem_cons.1 (given.mem_iff.1 hid')).symm.imp_right ?_
        exact List.mem_singleton.2
      · rw [List.mem_singleton.1 hid']
        exact free
    simp only [e₁, returned]
    refine meets_modify ?_
    rw [if_neg (by omega)]
    exact meets_pure ⟨h.of_gave gave only h.storage (given.nodup_iff.2 nodup), gave, free⟩

/-- Sectors that are held can be given back. If the disk fails some of them stay taken. -/
theorem meets_releaseAll (h : sp.Sound) {ids : List SectorId} (nodup : ids.Nodup)
    (held : ∀ id ∈ ids, sp.stock.Held id) :
    Meets (releaseAll ids) sp
      (fun _ sp' => sp'.Sound ∧ Stock.Gave ids sp.stock sp'.stock ∧ ∀ id ∈ ids, sp'.stock.free id)
      fun c sp' => sp'.Sound ∧ Stock.Gave ids sp.stock sp'.stock ∧
        Stock.Broke sp.stock sp'.stock c := by
  induction ids generalizing sp with
  | nil => exact meets_pure ⟨h, .refl _, nofun⟩
  | cons id rest ih =>
    obtain ⟨notin, nodup'⟩ := List.nodup_cons.1 nodup
    unfold releaseAll
    refine (meets_releaseOne h (held id List.mem_cons_self)).bind (fun _ sp₁ h₁ => ?_)
      fun c sp₁ h₁ => ?_
    · obtain ⟨sound, gave, free⟩ := h₁
      have held' : ∀ id' ∈ rest, sp₁.stock.Held id' := by
        intro id' hid'
        refine gave.held (held id' (List.mem_cons_of_mem _ hid')) fun hmem => notin ?_
        rwa [← List.mem_singleton.1 hmem]
      refine (ih sound nodup' held').mono (fun _ sp₂ h₂ => ?_) fun c sp₂ h₂ => ?_
      · refine ⟨h₂.1, gave.trans h₂.2.1, fun id' hid' => ?_⟩
        rcases List.mem_cons.1 hid' with rfl | hid'
        · exact h₂.2.1.kept _ free
        · exact h₂.2.2 id' hid'
      · exact ⟨h₂.1, gave.trans h₂.2.1, h₂.2.2.1, Nat.lt_of_le_of_lt gave.failures h₂.2.2.2⟩
    · exact ⟨h₁.1, h₁.2.1.mono (List.nil_subset _) h₁.2.2.2, h₁.2.2⟩

end Space

end SectorVolume
