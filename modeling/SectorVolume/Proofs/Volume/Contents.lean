import SectorVolume.Volume.File
import SectorVolume.Proofs.Mapping.Ensuring

/-!
# The bytes of a file

The data sectors of a file spell out its bytes; beyond them there are zeros. Reading pieces of a
range yields the bytes of the range. Writing pieces and filling them with zeros changes the bytes of
the pieces that were reached, and no others.
-/

namespace SectorVolume

open SectorVolume.Action

/-- The bytes at `start`, …, `start + len - 1`. -/
def span (f : Nat → UInt8) (start len : Nat) : Bytes := Array.ofFn fun i : Fin len => f (start + i)

theorem Sector.getElem_zero {i : Nat} (hi : i < 512) : Sector.zero[i] = 0 := by
  simp [Sector.zero]

theorem Sector.mod_lt (i : Nat) : i % 512 < 512 := Nat.mod_lt i (by decide)

/-- Byte `i` of the file with the data sectors `data`, for the content `L`. -/
def byteIn (L : SectorId → Sector) (data : List SectorId) (i : Nat) : UInt8 :=
  match data[i / 512]? with
  | some id => getElem (L id) (i % 512) (Sector.mod_lt i)
  | none => 0

theorem size_span (f : Nat → UInt8) (start len : Nat) : (span f start len).size = len :=
  Array.size_ofFn

theorem getElem_span (f : Nat → UInt8) {start len i : Nat} (hi : i < (span f start len).size) :
    (span f start len)[i] = f (start + i) := Array.getElem_ofFn ..

theorem span_zero (f : Nat → UInt8) (start : Nat) : span f start 0 = #[] :=
  Array.eq_empty_of_size_eq_zero (size_span ..)

theorem span_append (f : Nat → UInt8) (start len len' : Nat) :
    span f start len ++ span f (start + len) len' = span f start (len + len') := by
  refine Array.ext ?_ fun i hi hi' => ?_
  · rw [Array.size_append, size_span, size_span, size_span]
  · rw [getElem_span]
    by_cases e : i < len
    · rw [Array.getElem_append_left (by rw [size_span]; exact e), getElem_span]
    · rw [Array.getElem_append_right (by rw [size_span]; omega), getElem_span, size_span]
      congr 1
      omega

theorem span_congr {f g : Nat → UInt8} {start len : Nat}
    (h : ∀ i, start ≤ i → i < start + len → f i = g i) : span f start len = span g start len := by
  refine Array.ext (by rw [size_span, size_span]) fun i hi hi' => ?_
  rw [getElem_span, getElem_span]
  rw [size_span] at hi
  exact h _ (Nat.le_add_right _ _) (by omega)

/-- A part of a sector, if the bytes are those of the sector there. -/
theorem Sector.slice_eq_span {f : Nat → UInt8} {s : Sector} {p : Piece}
    (inside : p.offset + p.size ≤ 512)
    (h : ∀ i, (p.start + i) / 512 = p.start / 512 →
      f (p.start + i) = getElem s ((p.start + i) % 512) (mod_lt _)) :
    s.slice p.offset p.size = span f p.start p.size := by
  have size := Sector.size_slice s inside
  have offset : p.offset = p.start % 512 := rfl
  refine Array.ext (by rw [size, size_span]) fun i hi _ => ?_
  rw [size] at hi
  have here : (p.start + i) % 512 = p.offset + i := by omega
  rw [getElem_span, h i (by omega)]
  simp only [Sector.slice, Array.getElem_extract, here]
  rfl

theorem replicate_eq_span {f : Nat → UInt8} {p : Piece} (inside : p.offset + p.size ≤ 512)
    (h : ∀ i, (p.start + i) / 512 = p.start / 512 → f (p.start + i) = 0) :
    Array.replicate p.size 0 = span f p.start p.size := by
  have offset : p.offset = p.start % 512 := rfl
  refine Array.ext (by rw [Array.size_replicate, size_span]) fun i hi _ => ?_
  rw [Array.size_replicate] at hi
  rw [getElem_span, Array.getElem_replicate, h i (by omega)]

section

variable {L L' : SectorId → Sector} {data : List SectorId}

theorem byteIn_of_some {i : Nat} {id : SectorId} (h : data[i / 512]? = some id) :
    byteIn L data i = getElem (L id) (i % 512) (Sector.mod_lt i) := by
  unfold byteIn
  rw [h]

theorem byteIn_of_none {i : Nat} (h : data[i / 512]? = none) : byteIn L data i = 0 := by
  unfold byteIn
  rw [h]

theorem byteIn_congr (h : ∀ id ∈ data, L' id = L id) (i : Nat) :
    byteIn L' data i = byteIn L data i := by
  cases e : data[i / 512]? with
  | none => rw [byteIn_of_none e, byteIn_of_none e]
  | some id => rw [byteIn_of_some e, byteIn_of_some e, h id (List.mem_of_getElem? e)]

/-- The bytes of a piece are in one sector. -/
theorem slice_eq_span {p : Piece} {id : SectorId} (h : data[p.start / 512]? = some id)
    (inside : p.offset + p.size ≤ 512) :
    (L id).slice p.offset p.size = span (byteIn L data) p.start p.size :=
  Sector.slice_eq_span inside fun _ same => byteIn_of_some (by rw [same]; exact h)

theorem zeros_eq_span {p : Piece} (h : data[p.start / 512]? = none)
    (inside : p.offset + p.size ≤ 512) :
    Array.replicate p.size 0 = span (byteIn L data) p.start p.size :=
  replicate_eq_span inside fun _ same => byteIn_of_none (by rw [same]; exact h)

/-- Overwriting a part of one data sector changes the bytes there. -/
theorem byteIn_overlay (nodup : data.Nodup) {start : Nat} {id : SectorId}
    (h : data[start / 512]? = some id) {bytes : Bytes} (inside : start % 512 + bytes.size ≤ 512)
    (i : Nat) :
    byteIn (Function.update L id ((L id).overlay (start % 512) bytes)) data i =
      if start ≤ i ∧ i < start + bytes.size then bytes.getD (i - start) 0 else byteIn L data i := by
  cases e : data[i / 512]? with
  | none =>
    rw [byteIn_of_none e, byteIn_of_none e, if_neg fun range => ?_]
    rw [show i / 512 = start / 512 by omega, h] at e
    cases e
  | some id' =>
    rw [byteIn_of_some e, byteIn_of_some e]
    by_cases same : i / 512 = start / 512
    · rw [same, h] at e
      cases e
      rw [Function.update_self]
      by_cases range : start ≤ i ∧ i < start + bytes.size
      · rw [if_pos range, Sector.getElem_overlay_of_mem _ _ (by omega) (by omega),
          Array.getD_eq_getD_getElem?, Array.getElem?_eq_getElem (by omega), Option.getD_some]
        congr 1
        omega
      · rw [if_neg range, Sector.getElem_overlay_of_not_mem _ _ (by omega)]
    · have other : id' ≠ id := by
        rintro rfl
        obtain ⟨lt, e⟩ := List.getElem?_eq_some_iff.1 e
        obtain ⟨lt', e'⟩ := List.getElem?_eq_some_iff.1 h
        exact same ((nodup.getElem_inj_iff).1 (e.trans e'.symm))
      rw [Function.update_of_ne other, if_neg (by omega)]

end

/-- A growth adds zeros, if anything. -/
theorem Tree.Grows.byteIn_eq [Promise] {t t' : Tree} {a b : Stock} (h : t.Sound a) (g : t.Grows a t' b)
    (i : Nat) : byteIn b.content t'.data i = byteIn a.content t.data i := by
  obtain ⟨ids, took, perm⟩ := g.taken
  obtain ⟨new, e⟩ := g.data
  by_cases lt : i / 512 < t.data.length
  · have there : t.data[i / 512]? = some t.data[i / 512] := List.getElem?_eq_getElem lt
    have there' : t'.data[i / 512]? = some t.data[i / 512] := by
      rw [← e, List.getElem?_append_left lt]
      exact there
    have mem : t.data[i / 512] ∈ t.data := List.getElem_mem lt
    rw [byteIn_of_some there, byteIn_of_some there',
      took.content (h.held _ (Tree.mem_sectors_data mem)) (h.not_mem_blocks mem)]
  · have none : byteIn a.content t.data i = 0 :=
      byteIn_of_none (List.getElem?_eq_none (Nat.not_lt.1 lt))
    rw [none]
    cases e' : t'.data[i / 512]? with
    | none => rw [byteIn_of_none e']
    | some id =>
      have nodup := g.sound.nodup.of_append_left
      have mem : id ∈ t'.data := List.mem_of_getElem? e'
      have notin : id ∉ t.data := by
        rw [← e] at nodup e'
        rw [List.getElem?_append_right (Nat.not_lt.1 lt)] at e'
        exact fun hid => List.disjoint_of_nodup_append nodup hid (List.mem_of_getElem? e')
      rw [byteIn_of_some e', g.zero id mem notin, Sector.getElem_zero]

end SectorVolume
