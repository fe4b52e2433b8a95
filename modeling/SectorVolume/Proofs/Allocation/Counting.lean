import Mathlib.Data.List.GetD
import Mathlib.Data.List.Induction
import SectorVolume.Proofs.Allocation.Marking

/-!
# Counting free sectors

The number of clear bits in the sectors of the bitmap is the number of sectors that are free. What
is counted byte by byte in the sectors is counted bit by bit here.
-/

namespace SectorVolume

namespace Bit

theorem numbers_map_val : numbers.map Fin.val = List.range 8 := by decide

theorem count_eq (byte : UInt8) : count byte = (List.range 8).countP fun k => isSet byte k := by
  rw [← numbers_map_val, List.countP_map]
  rfl

/-- The set bits of a row of bytes. -/
theorem foldl_count (bytes : List UInt8) :
    bytes.foldl (fun n byte => n + count byte) 0 =
      (List.range (8 * bytes.length)).countP fun k => isSet (bytes.getD (k / 8) 0) (k % 8) := by
  induction bytes using List.reverseRecOn with
  | nil => rfl
  | append_singleton bytes byte ih =>
    have before : (List.range (8 * bytes.length)).countP
          (fun k => isSet ((bytes ++ [byte]).getD (k / 8) 0) (k % 8)) =
        (List.range (8 * bytes.length)).countP
          (fun k => isSet (bytes.getD (k / 8) 0) (k % 8)) := by
      refine List.countP_congr fun k hk => ?_
      have hk := List.mem_range.1 hk
      rw [List.getD_append _ _ _ _ (by omega)]
    have last : (List.range 8).countP
          ((fun k => isSet ((bytes ++ [byte]).getD (k / 8) 0) (k % 8)) ∘ (8 * bytes.length + ·)) =
        count byte := by
      rw [count_eq]
      refine List.countP_congr fun k hk => ?_
      have hk := List.mem_range.1 hk
      have hq : (8 * bytes.length + k) / 8 = bytes.length := by omega
      have hr : (8 * bytes.length + k) % 8 = k := by omega
      simp [hq, hr]
    have length : 8 * (bytes ++ [byte]).length = 8 * bytes.length + 8 := by
      rw [List.length_append, List.length_singleton]
      omega
    rw [length, List.range_add, List.countP_append, List.countP_map, before, last, ← ih,
      List.foldl_concat]

end Bit

namespace Sector

theorem setCount_eq (s : Sector) :
    s.setCount = (List.finRange 4096).countP fun b => s.bit b := by
  have bits : ((List.finRange 4096).map Fin.val).countP
      (fun k => Bit.isSet (s.toList.getD (k / 8) 0) (k % 8)) =
      (List.finRange 4096).countP fun b => s.bit b := by
    rw [List.countP_map]
    refine List.countP_congr fun b _ => ?_
    have hb : b.val / 8 < 512 := by omega
    have e : s.toList.getD (b.val / 8) 0 = s[b.val / 8] := by
      rw [List.getD_eq_getElem _ _ (by simpa using hb)]
      simp
    rw [Function.comp_apply, e]
    rfl
  unfold setCount
  rw [← Vector.foldl_toList, Bit.foldl_count, ← bits, List.map_coe_finRange_eq_range]
  simp

theorem clearCount_eq (s : Sector) :
    s.clearCount = (List.finRange 4096).countP fun b => !s.bit b := by
  have all := List.length_eq_countP_add_countP (fun b => s.bit b) (l := List.finRange 4096)
  rw [List.length_finRange] at all
  unfold clearCount
  rw [setCount_eq]
  have flip : (List.finRange 4096).countP (fun b => decide ¬ s.bit b = true) =
      (List.finRange 4096).countP fun b => !s.bit b :=
    List.countP_congr fun b _ => by simp
  omega

end Sector

namespace FreeMap

open SectorVolume.Action Storage

variable {m : FreeMap} {w : Prop} {n : Nat} {st : Storage}

theorem clearCount_block (m : FreeMap) (L : SectorId → Sector) (i : Nat) :
    (L (m.block i)).clearCount =
      (List.range' (i * 4096) 4096).countP fun k => !m.bit L k := by
  rw [Sector.clearCount_eq, List.range'_eq_map_range, ← List.map_coe_finRange_eq_range,
    List.countP_map, List.countP_map]
  refine List.countP_congr fun b _ => ?_
  rw [Function.comp_apply, Function.comp_apply, bit_eq b rfl]

/-- The number of clear bits. -/
def clearBits (m : FreeMap) (L : SectorId → Sector) : Nat :=
  (List.range (m.sectors * 4096)).countP fun k => !m.bit L k

theorem clearBits_eq (m : FreeMap) (L : SectorId → Sector) : m.clearBits L = (m.clear L).length :=
  List.countP_eq_length_filter

theorem meets_freeFrom (hp : m.Stands n) (h : st.Good w n []) (i free count : Nat)
    (all : i + count = m.sectors) :
    Meets (m.freeFrom i free count) st
      (fun r st' => Same w n [] st st' ∧ r = free +
        (List.range' (i * 4096) (count * 4096)).countP fun k => !m.bit st.logical k)
      (Breaks w n st) := by
  induction count generalizing i free st with
  | zero => exact meets_pure ⟨h.same, by simp⟩
  | succ count ih =>
    have hi : i < m.sectors := by omega
    unfold freeFrom
    rw [hp.sectorAt_eq hi, pure_bind]
    refine (meets_readSector h (hp.block_lt hi)).bind (fun s st₁ h₁ => ?_) fun _ _ h => h
    obtain ⟨same, rfl⟩ := h₁
    refine (ih same.good (i + 1) _ (by omega)).mono (fun r st₂ h₂ => ?_) fun _ _ h => same.breaks h
    refine ⟨same.trans h₂.1, ?_⟩
    have split : List.range' (i * 4096) ((count + 1) * 4096) =
        List.range' (i * 4096) 4096 ++ List.range' ((i + 1) * 4096) (count * 4096) := by
      rw [show (count + 1) * 4096 = 4096 + count * 4096 by omega, ← List.range'_append_1,
        show i * 4096 + 4096 = (i + 1) * 4096 by omega]
    rw [h₂.2, same.logical, clearCount_block, split, List.countP_append]
    omega

theorem meets_freeCount (hp : m.Stands n) (h : st.Good w n []) :
    Meets m.freeCount st (fun r st' => Same w n [] st st' ∧ r = m.clearBits st.logical)
      (Breaks w n st) := by
  refine (meets_freeFrom hp h 0 0 m.sectors (Nat.zero_add _)).mono (fun r st' h' => ⟨h'.1, ?_⟩)
    fun _ _ h => h
  rw [h'.2, clearBits, List.range_eq_range']
  simp

end FreeMap

end SectorVolume
