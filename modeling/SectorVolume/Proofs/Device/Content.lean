import SectorVolume.Device.Content

/-!
# Contents with the same bytes

A content is known by its length and its sectors. What stands in its sectors past the end matters
for it, since it shows when the content gets longer; the bytes up to the end do not depend on that.
-/

namespace SectorVolume

namespace Content

variable {c c' c'' : Content} {n : Nat}

/-- The contents have the same length and the same sectors. -/
structure Alike (c c' : Content) : Prop where
  length : c'.length = c.length
  sector : ∀ n, c'.sector n = c.sector n

theorem Alike.refl (c : Content) : c.Alike c := ⟨rfl, fun _ => rfl⟩

theorem Alike.symm (h : c.Alike c') : c'.Alike c := ⟨h.length.symm, fun n => (h.sector n).symm⟩

theorem Alike.trans (h : c.Alike c') (h' : c'.Alike c'') : c.Alike c'' :=
  ⟨h'.length.trans h.length, fun n => (h'.sector n).trans (h.sector n)⟩

theorem Alike.slice (h : c.Alike c') (offset len : Nat) : c'.slice offset len = c.slice offset len := by
  unfold Content.slice
  rw [h.length, funext h.sector]

theorem Alike.toBytes (h : c.Alike c') : c'.toBytes = c.toBytes := by
  unfold Content.toBytes
  rw [h.length, h.slice]

/-- The content has all of sector `n`. -/
def Has (c : Content) (n : Nat) : Prop := n < c.length / sectorSize

/-- Putting the bytes of a sector in their place again changes nothing, if the sector is there. -/
theorem Alike.put (h : c.Alike c') (has : c.Has n) : c.Alike (c'.put n (c.sector n)) := by
  have size : sectorSize = 512 := rfl
  refine ⟨?_, fun m => ?_⟩
  · have length := h.length
    unfold Has at has
    show max c'.length (sectorSize * (n + 1)) = c.length
    rw [size] at has ⊢
    omega
  · by_cases e : m = n
    · rw [e, sector_put_self]
    · rw [sector_put_of_ne _ _ e, h.sector]

end Content

end SectorVolume
