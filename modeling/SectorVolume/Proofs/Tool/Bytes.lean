import SectorVolume.Proofs.Device.Content
import SectorVolume.Proofs.Volume.Pieces
import SectorVolume.Proofs.Volume.Strings

/-!
# Byte strings in files

A file that was made from a byte string has the bytes of the string, and no others.
-/

namespace SectorVolume

namespace Content

/-- Byte `i` of the content, which is zero beyond the sectors that were written. -/
def byte (c : Content) (i : Nat) : UInt8 := getElem (c.sector (i / 512)) (i % 512) (Sector.mod_lt i)

/-- The content with one piece of `bytes`, which stand at `offset`, written into its sector. -/
def laid (offset : Nat) (bytes : Bytes) (c : Content) (p : Piece) : Content :=
  c.replace p.index <| (c.sector p.index).overlay p.offset <|
    bytes.extract (p.start - offset) (p.start - offset + p.size)

variable {c : Content} {bytes : Bytes} {offset start size : Nat}

theorem sector_replace (c : Content) (n : Nat) (s : Sector) (m : Nat) :
    (c.replace n s).sector m = if m = n then s else c.sector m := by
  simp only [replace, sector, Std.HashMap.getD_insert, beq_iff_eq, eq_comm (a := n)]

/-- The bytes of a piece are in one sector. -/
theorem slice_sector_eq_span (c : Content) (inside : start % 512 + size ≤ 512) :
    (c.sector (start / 512)).slice (start % 512) size = span c.byte start size := by
  have full := Sector.size_slice (c.sector (start / 512)) inside
  refine Array.ext (by rw [full, size_span]) fun i hi _ => ?_
  rw [full] at hi
  have same : (start + i) / 512 = start / 512 := by omega
  have here : (start + i) % 512 = start % 512 + i := by omega
  rw [getElem_span]
  simp only [byte, Sector.slice, Array.getElem_extract, same, here]
  rfl

theorem foldl_slice_pieces (c : Content) (start len : Nat) (bytes : Bytes) :
    (pieces start len).foldl (fun bytes p => bytes ++ (c.sector p.index).slice p.offset p.size) bytes =
      bytes ++ span c.byte start len := by
  induction len using Nat.strongRecOn generalizing start bytes with | ind len ih
  by_cases none : len = 0
  · rw [none, pieces_zero, span_zero, Array.append_empty]
    rfl
  · obtain ⟨size, pos, le, inside, e⟩ := pieces_of_pos start none
    rw [e, List.foldl_cons, ih _ (by omega)]
    show bytes ++ (c.sector (start / 512)).slice (start % 512) size ++ _ = _
    rw [slice_sector_eq_span c inside, Array.append_assoc, span_append, Nat.add_sub_cancel' le]

theorem toBytes_eq_span (c : Content) : c.toBytes = span c.byte 0 c.length := by
  unfold toBytes slice
  rw [Nat.sub_zero, Nat.min_self, foldl_slice_pieces, Array.empty_append]

theorem size_toBytes (c : Content) : c.toBytes.size = c.length := by
  rw [toBytes_eq_span, size_span]

theorem byte_laid (c : Content) (reached : offset ≤ start) (inside : start % 512 + size ≤ 512)
    (within : start - offset + size ≤ bytes.size) (i : Nat) :
    (c.laid offset bytes ⟨start, size⟩).byte i =
      if start ≤ i ∧ i < start + size then bytes.getD (i - offset) 0 else c.byte i := by
  have full : (bytes.extract (start - offset) (start - offset + size)).size = size := by
    rw [Array.size_extract]
    omega
  unfold byte
  by_cases same : i / 512 = start / 512
  · rw [show (c.laid offset bytes ⟨start, size⟩).sector (i / 512) = (c.sector (i / 512)).overlay
      (start % 512) (bytes.extract (start - offset) (start - offset + size)) by
        rw [same]; exact (sector_replace ..).trans (if_pos rfl)]
    by_cases range : start ≤ i ∧ i < start + size
    · rw [if_pos range, Sector.getElem_overlay_of_mem _ _ (by omega) (by omega),
        Array.getElem_extract, Bytes.getD_of_lt (by omega)]
      congr 1
      omega
    · rw [if_neg range, Sector.getElem_overlay_of_not_mem _ _ (by omega)]
  · rw [show (c.laid offset bytes ⟨start, size⟩).sector (i / 512) = c.sector (i / 512) from
      (sector_replace ..).trans (if_neg same), if_neg (by omega)]

theorem byte_foldl_laid (c : Content) (reached : offset ≤ start) {len : Nat}
    (within : start - offset + len ≤ bytes.size) (i : Nat) :
    ((pieces start len).foldl (laid offset bytes) c).byte i =
      if start ≤ i ∧ i < start + len then bytes.getD (i - offset) 0 else c.byte i := by
  induction len using Nat.strongRecOn generalizing start c with | ind len ih
  by_cases none : len = 0
  · rw [none, pieces_zero, if_neg (by omega)]
    rfl
  · obtain ⟨size, pos, le, inside, e⟩ := pieces_of_pos start none
    rw [e, List.foldl_cons, ih _ (by omega) _ (by omega) (by omega),
      byte_laid c reached inside (by omega)]
    by_cases later : start + size ≤ i ∧ i < start + size + (len - size)
    · rw [if_pos later, if_pos (by omega)]
    · rw [if_neg later]
      by_cases now : start ≤ i ∧ i < start + size
      · rw [if_pos now, if_pos (by omega)]
      · rw [if_neg now, if_neg (by omega)]

theorem length_ofBytes (bytes : Bytes) : (ofBytes bytes).length = bytes.size := by
  unfold ofBytes patch
  split
  · next none => rw [Array.isEmpty_iff.1 none]; rfl
  · show max 0 (0 + bytes.size) = bytes.size
    omega

theorem byte_ofBytes {i : Nat} (hi : i < bytes.size) : (ofBytes bytes).byte i = bytes[i] := by
  unfold ofBytes patch
  rw [if_neg fun none => by rw [Array.isEmpty_iff.1 none] at hi; exact Nat.not_lt_zero i hi]
  refine (byte_foldl_laid (zeros 0) (show 0 ≤ 0 from Nat.le_refl 0) (by omega) i).trans ?_
  rw [if_pos (by omega), Nat.sub_zero, Bytes.getD_of_lt hi]

/-- What was made from bytes has these bytes. -/
theorem toBytes_ofBytes (bytes : Bytes) : (ofBytes bytes).toBytes = bytes := by
  refine Array.ext (by rw [size_toBytes, length_ofBytes]) fun i hi hi' => ?_
  simp only [toBytes_eq_span, getElem_span, Nat.zero_add, byte_ofBytes hi']

end Content

end SectorVolume
