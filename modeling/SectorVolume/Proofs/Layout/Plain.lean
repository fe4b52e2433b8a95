import SectorVolume.Layout.Superblock
import SectorVolume.Mapping.Walk
import SectorVolume.Proofs.Sector.Plain

/-!
# Records, index blocks and superblocks are plain

What the layers above keep in sectors are rows of words: a record and an index block are 128 words
each, and a superblock is four words and a double word. Each of them is read back as it was written,
and written again as it was read, also the words that nobody uses.
-/

namespace SectorVolume

/-! ## Index blocks -/

namespace IndexBlock

/-- An index block as a typed view of a sector. -/
def view : View IndexBlock where
  size := 512
  alignment := 4
  decode := ofSector
  encode := toSector

/-- The entries. -/
def numerals (block : IndexBlock) : List Numeral := block.toList.map fun id => ⟨4, id.toNat⟩

theorem plain_view : view.Plain numerals where
  decode_encode := Sector.words32_ofWords32
  encode_decode := Sector.ofWords32_words32
  bytes_encode block := by
    refine (Sector.toList_ofWords32 block).trans ?_
    rw [Numeral.bytes, numerals, List.flatMap_map]

end IndexBlock

/-! ## Records -/

namespace Record

/-- A record is read back from its sector. -/
theorem ofSector_toSector (r : Record) : ofSector r.toSector = r := by
  have word : ∀ i : Fin 128, r.toSector.word32 i = r.word i := by
    intro i
    unfold toSector
    rw [Sector.word32_ofWords32]
    exact Vector.getElem_ofFn ..
  generalize r.toSector = s at word
  have direct : (ofSector s).direct = r.direct := by
    refine Vector.ext fun i hi => ?_
    have here : (ofSector s).direct[i] = s.word32 ⟨i, by omega⟩ := Vector.getElem_ofFn ..
    rw [here, word, Record.word, dif_pos hi]
  have reserved : (ofSector s).reserved = r.reserved := by
    refine Vector.ext fun i hi => ?_
    have here : (ofSector s).reserved[i] = s.word32 ⟨17 + i, by omega⟩ := Vector.getElem_ofFn ..
    rw [here, word, Record.word, dif_neg (by simp only; omega), if_neg (by simp only; omega),
      if_neg (by simp only; omega), if_neg (by simp only; omega), if_neg (by simp only; omega),
      dif_neg (by simp only; omega)]
    simp only [Nat.add_sub_cancel_left]
  have fields : s.word32 12 = r.indirect ∧ s.word32 13 = r.doubleIndirect ∧
      s.word32 14 = r.length ∧ s.word32 15 = r.directoryFlag ∧ s.word32 16 = r.magic :=
    ⟨word 12, word 13, word 14, word 15, word 16⟩
  obtain ⟨indirect, doubleIndirect, length, directoryFlag, magic⟩ := fields
  have e : ofSector s = ⟨(ofSector s).direct, s.word32 12, s.word32 13, s.word32 14, s.word32 15,
    s.word32 16, (ofSector s).reserved⟩ := rfl
  rw [e, direct, reserved, indirect, doubleIndirect, length, directoryFlag, magic]

/-- A sector is read as a record and written again. -/
theorem toSector_ofSector (b : Sector) : (ofSector b).toSector = b := by
  have word : ∀ i : Fin 128, (ofSector b).word i = b.word32 i := by
    intro i
    unfold word ofSector
    simp only [Vector.getElem_ofFn]
    by_cases direct : i.val < 12
    · rw [dif_pos direct]
    · rw [dif_neg direct]
      have number : ∀ k : Fin 128, i.val = k.val → b.word32 k = b.word32 i := fun k e =>
        congrArg b.word32 (Fin.ext e.symm)
      split
      · next e => exact number 12 e
      split
      · next e => exact number 13 e
      split
      · next e => exact number 14 e
      split
      · next e => exact number 15 e
      split
      · next e => exact number 16 e
      · exact number _ (show i.val = 17 + (i.val - 17) by omega)
  show Sector.ofWords32 (Vector.ofFn (ofSector b).word) = b
  rw [funext word]
  exact Sector.ofWords32_words32 b

/-- The words of a record, in order. -/
def words (r : Record) : List UInt32 :=
  r.direct.toList ++ ([r.indirect, r.doubleIndirect, r.length, r.directoryFlag, r.magic] ++
    r.reserved.toList)

/-- The fields of a record. -/
def numerals (r : Record) : List Numeral := r.words.map fun w => ⟨4, w.toNat⟩

theorem length_words (r : Record) : r.words.length = 128 := by
  simp only [words, List.length_append, Vector.length_toList, List.length_cons, List.length_nil]

theorem getElem?_words (r : Record) {i : Nat} (hi : i < 128) :
    r.words[i]? = some (r.word ⟨i, hi⟩) := by
  unfold words word
  by_cases direct : i < 12
  · rw [dif_pos direct, List.getElem?_append_left (by simpa using direct), Vector.getElem?_toList]
    exact Vector.getElem?_eq_getElem direct
  · rw [dif_neg direct, List.getElem?_append_right (by simpa using direct), Vector.length_toList]
    by_cases single : i < 17
    · rw [List.getElem?_append_left (by simp only [List.length_cons, List.length_nil]; omega)]
      interval_cases i <;> rfl
    · rw [if_neg (by simp only; omega), if_neg (by simp only; omega), if_neg (by simp only; omega),
        if_neg (by simp only; omega), dif_neg (by simp only; omega),
        List.getElem?_append_right (by simp only [List.length_cons, List.length_nil]; omega),
        Vector.getElem?_toList, Nat.sub_sub]
      exact Vector.getElem?_eq_getElem (show i - 17 < 111 by omega)

theorem toList_ofFn_word (r : Record) : (Vector.ofFn r.word).toList = r.words := by
  refine List.ext_getElem? fun i => ?_
  rw [Vector.toList_ofFn, List.getElem?_ofFn]
  by_cases hi : i < 128
  · rw [dif_pos hi, getElem?_words r hi]
  · rw [dif_neg hi, List.getElem?_eq_none (by rw [length_words]; omega)]

theorem plain_view : view.Plain numerals where
  decode_encode := ofSector_toSector
  encode_decode := toSector_ofSector
  bytes_encode r := by
    refine (Sector.toList_ofWords32 (Vector.ofFn r.word)).trans ?_
    rw [toList_ofFn_word, Numeral.bytes, numerals, List.flatMap_map]

end Record

/-! ## Superblocks -/

namespace Superblock

theorem decode_encode (sb : Superblock) : decode sb.encode = sb := by
  obtain ⟨magic, total, start, sectors, time⟩ := sb
  have time' : (Word.of64 (Word.low time.toUInt64) (Word.high time.toUInt64)).toInt64 = time := by
    rw [Word.of64_low_high]
    exact Int64.toInt64_toUInt64 time
  unfold decode encode
  simp [Word.of32_byte32, time']

/-- The fields of a superblock. -/
def numerals (sb : Superblock) : List Numeral :=
  [⟨4, sb.magic.toNat⟩, ⟨4, sb.totalSectors.toNat⟩, ⟨4, sb.bitmapStart.toNat⟩,
    ⟨4, sb.bitmapSectors.toNat⟩, ⟨8, sb.formattedAt.toUInt64.toNat⟩]

/-- Bytes are read as a superblock and written again. -/
theorem encode_decode (b : Vector UInt8 24) : (decode b).encode = b := by
  have words : (#v[(decode b).magic, (decode b).totalSectors, (decode b).bitmapStart,
      (decode b).bitmapSectors, Word.low (decode b).formattedAt.toUInt64,
      Word.high (decode b).formattedAt.toUInt64] : Vector UInt32 6) =
      Vector.ofFn fun q : Fin 6 => Word.of32 b[4 * q.val] b[4 * q.val + 1] b[4 * q.val + 2]
        b[4 * q.val + 3] := by
    refine Vector.ext fun q hq => ?_
    rw [Vector.getElem_ofFn]
    match q, hq with
    | 0, _ => rfl
    | 1, _ => rfl
    | 2, _ => rfl
    | 3, _ => rfl
    | 4, _ => exact Word.low_of64 ..
    | 5, _ => exact Word.high_of64 ..
  unfold encode
  rw [words]
  refine Vector.ext fun i hi => ?_
  obtain ⟨q, r, hr, rfl⟩ : ∃ q r, r < 4 ∧ i = 4 * q + r := ⟨i / 4, i % 4, by omega, by omega⟩
  have h₁ : (4 * q + r) / 4 = q := by omega
  have h₂ : (4 * q + r) % 4 = r := by omega
  simp only [Vector.getElem_ofFn, h₁, h₂]
  match r, hr with
  | 0, _ => exact Word.byte32_of32_zero ..
  | 1, _ => exact Word.byte32_of32_one ..
  | 2, _ => exact Word.byte32_of32_two ..
  | 3, _ => exact Word.byte32_of32_three ..

theorem toList_encode (sb : Superblock) : sb.encode.toList = Numeral.bytes sb.numerals := by
  refine (toList_ofFn_words (n := 6) _).trans ?_
  simp [Numeral.bytes, numerals, littleEndian_eight]

theorem plain_view : view.Plain numerals where
  decode_encode := decode_encode
  encode_decode := encode_decode
  bytes_encode := toList_encode

end Superblock

end SectorVolume
