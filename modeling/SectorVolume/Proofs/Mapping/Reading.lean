import SectorVolume.Mapping.Walk
import SectorVolume.Proofs.Cache.Hidden

/-!
# Whatever survives reading

Counting free sectors, looking up a byte and listing the sectors of a file only read sectors, one
after the other, wherever the entries lead. So they cannot tell apart what the reading of one sector
cannot tell apart, and they keep every invariant that survives it.
-/

namespace SectorVolume

open SectorVolume.Action

variable {I : Storage → Prop} {α : Type} {c : Comparison Storage} {same : α → α → Prop}

/-! ## Storage with an allocator -/

/-- Compares spaces with equal allocators by their storage. -/
def Comparison.space (c : Comparison Storage) : Comparison Space :=
  c.onPart Space.storage Space.allocator

theorem Comparison.lens_space : Lens c c.space Space.storage fun st sp => ⟨st, sp.allocator⟩ :=
  lens_onPart (fun _ _ => rfl) fun _ _ => rfl

namespace Space

theorem onStorage_eq_within (x : Action Storage α) :
    onStorage x = within Space.storage (fun st sp => ⟨st, sp.allocator⟩) x := by
  funext ⟨storage, allocator⟩
  unfold onStorage within
  simp only
  cases x storage <;> rfl

theorem couples_onStorage {x y : Action Storage α} (h : Couples c same x y) :
    Couples c.space same (onStorage x) (onStorage y) := by
  rw [onStorage_eq_within, onStorage_eq_within]
  exact Comparison.lens_space.couples h

theorem blind_onStorage {x : Action Storage α} (h : Blind c x) : Blind c.space (onStorage x) :=
  couples_onStorage h

theorem blind_get_bind {k : Space → Action Space α}
    (e : ∀ st st' allocator, k ⟨st, allocator⟩ = k ⟨st', allocator⟩)
    (h : ∀ sp, Blind c.space (k sp)) : Blind c.space (get >>= k) := by
  refine SectorVolume.blind_get_bind ?_ h
  rintro ⟨st, allocator⟩ ⟨st', _⟩ ⟨-, rfl⟩
  exact e st st' allocator

theorem ends_onStorage {sp : Space} {x : Action Storage α} {d : α → Storage → Prop}
    {f : Failure → Storage → Prop} (h : Ends x sp.storage d f) :
    Ends (onStorage x) sp (fun a sp' => d a sp'.storage ∧ sp'.allocator = sp.allocator)
      fun e sp' => f e sp'.storage ∧ sp'.allocator = sp.allocator := by
  obtain ⟨storage, allocator⟩ := sp
  unfold Ends onStorage at *
  simp only at h ⊢
  cases e : x storage with
  | ok | error =>
    rw [e] at h
    exact ⟨h, rfl⟩

/-- What holds of the storage survives if an action of the storage keeps it. -/
theorem preserves_onStorage {x : Action Storage α} (h : Preserves I x) :
    Preserves (fun sp => I sp.storage) (onStorage x) := fun sp kept =>
  (ends_onStorage (h sp.storage kept)).mono (fun _ _ h => h.1) fun _ _ h => h.1

end Space

/-! ## Reading sectors -/

theorem FreeMap.blind_sectorAt {σ : Type} {c : Comparison σ} (m : FreeMap) (i : Nat) :
    Blind c (m.sectorAt i) := by
  unfold sectorAt
  exact blind_ite (blind_pure _) (blind_violate _)

theorem FreeMap.preserves_sectorAt (m : FreeMap) (i : Nat) : Preserves I (m.sectorAt i) :=
  (m.blind_sectorAt (c := .single I) i).left.preserves

/-- An invariant that survives the reading of a sector survives whatever only reads sectors. -/
theorem Comparison.readable_single (hs : ∀ sector, Preserves I (Storage.readSector sector))
    (h : ∀ sector offset len, Preserves I (Storage.read sector offset len)) :
    (Comparison.single I).Readable :=
  ⟨fun sector => blind_single (hs sector), fun sector offset len => blind_single (h sector offset len)⟩

namespace Comparison.Readable

theorem freeFrom (h : c.Readable) (m : FreeMap) (i free count : Nat) :
    Blind c (m.freeFrom i free count) := by
  induction count generalizing i free with
  | zero => exact blind_pure _
  | succ count ih =>
    unfold FreeMap.freeFrom
    refine (m.blind_sectorAt i).bind fun sector => (h.readSector sector).bind fun s => ?_
    exact ih (i + 1) _

theorem freeCount (h : c.Readable) : Blind c.space Space.freeCount := by
  unfold Space.freeCount
  refine Space.blind_get_bind (fun _ _ _ => rfl) fun sp => ?_
  split
  · next map _ => exact Space.blind_onStorage (h.freeFrom map 0 0 map.sectors)
  · exact blind_pure _

theorem load (h : c.Readable) (sector : SectorId) : Blind c (IndexBlock.load sector) :=
  (h.readSector sector).bind fun _ => blind_pure _

theorem entry (h : c.Readable) (sector : SectorId) (i : Fin 128) :
    Blind c (IndexBlock.entry sector i) := (h.readSector sector).bind fun _ => blind_pure _

theorem lookup (h : c.Readable) (r : Record) (offset : Nat) : Blind c (r.lookup offset) := by
  unfold Record.lookup
  extract_lets found
  have yields : ∀ sector, Blind c (found sector) := fun _ => blind_pure _
  have none : Blind c (pure 0 >>= found) := (blind_pure _).bind yields
  have entry : ∀ block i, Blind c (IndexBlock.entry block i >>= found) :=
    fun block i => (h.entry block i).bind yields
  split
  · exact none
  · exact (blind_pure _).bind yields
  · exact blind_ite none (entry _ _)
  · exact blind_ite none ((h.entry _ _).bind fun child => blind_ite none (entry _ _))

theorem mappedBelow (h : c.Readable) (blocks : List SectorId) :
    Blind c (Record.mappedBelow blocks) := by
  induction blocks with
  | nil => exact blind_pure _
  | cons child rest ih => exact (h.load child).bind fun _ => ih.bind fun _ => blind_pure _

theorem mapped (h : c.Readable) (r : Record) : Blind c r.mapped := by
  have top : ∀ sector, Blind c (Record.mappedTop sector) := fun sector =>
    (h.load sector).bind fun _ => (h.mappedBelow _).bind fun _ => blind_pure _
  unfold Record.mapped
  refine (h.mappedBelow _).bind fun first => blind_ite ?_ ?_
  · exact (h.mappedBelow []).bind fun _ => blind_pure _
  · exact (top _).bind fun _ => blind_pure _

end Comparison.Readable

end SectorVolume
