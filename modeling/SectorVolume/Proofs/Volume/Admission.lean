import SectorVolume.Proofs.Volume.Setup

/-!
# What is taken for a volume

Opening a volume reads the first sector of the disk and nothing else. What stands there decides
alone, whatever it is: other content than a superblock is refused, a superblock is believed, and one
whose bitmap has too few bits for the sectors that it tells of breaks a rule of use. Otherwise the
volume is opened, unless the sector cannot be read or there is no memory for the cache.
-/

namespace SectorVolume

open SectorVolume.Action

/-- A failed transfer was the reason, and that the disk did not work. -/
def Disk.Fails (works : Prop) (d : Disk) (e : Failure) (d' : Disk) : Prop :=
  (∃ cause, e = .fault (.device cause)) ∧ d.failures < d'.failures ∧ ¬ works

namespace Superblock

theorem read_view (b : Sector) : view.read b 0 = .ok (ofSector b) := rfl

/-- The bitmap that the superblock tells of. -/
def map (sb : Superblock) : FreeMap :=
  ⟨sb.bitmapStart, sb.bitmapSectors.toNat, sb.totalSectors.toNat⟩

/-- There is a bit for each sector in the bitmap that the superblock tells of. -/
def Covered (sb : Superblock) : Prop := sb.totalSectors.toNat ≤ sb.bitmapSectors.toNat * 4096

instance (sb : Superblock) : Decidable sb.Covered := inferInstanceAs (Decidable (_ ≤ _))

/-- The sectors of the bitmap are counted by a 32-bit word, so the number of its bits cannot
overflow. -/
theorem create_map (sb : Superblock) :
    sb.Covered ∧ FreeMap.create sb.bitmapStart sb.bitmapSectors.toNat sb.totalSectors.toNat =
        .ok sb.map ∨
      ¬ sb.Covered ∧ FreeMap.create sb.bitmapStart sb.bitmapSectors.toNat sb.totalSectors.toNat =
        .error .bitmapTooSmall := by
  have bits : sectorBits = 4096 := rfl
  have words : wordRange64 = 2 ^ 64 := rfl
  have sectors := sb.bitmapSectors.toNat_lt
  unfold FreeMap.create Covered
  rw [bits, if_neg (by omega)]
  by_cases short : sb.bitmapSectors.toNat * 4096 < sb.totalSectors.toNat
  · rw [if_pos short]
    exact .inr ⟨Nat.not_le.2 short, rfl⟩
  · rw [if_neg short]
    exact .inl ⟨Nat.not_lt.1 short, rfl⟩

/-- Why the superblock is not made a volume of. -/
inductive Declines (sb : Superblock) : Failure → Prop
  | foreign : sb.isValid = false → Declines sb (.fault .badSuperblock)
  | uncovered : sb.isValid = true → ¬ sb.Covered → Declines sb (.violation .bitmapTooSmall)

end Superblock

/-- The superblock is recognised, or the reason not to is found in it, or it cannot be read. -/
theorem Storage.ends_recognise {w : Prop} {n : Nat} {st : Storage} (h : st.Good w n [])
    (some : 0 < n) {sb : Superblock} (label : Superblock.ofSector (st.logical 0) = sb) :
    Ends Volume.recognise st
      (fun r st' => (sb.isValid = true ∧ sb.Covered) ∧ r = (sb, sb.map) ∧ Same w n [] st st')
      fun e st' => sb.Declines e ∨ ∃ c, e = .fault c ∧ Breaks w n st c st' := by
  unfold Volume.recognise
  refine (meets_readView h (show (0 : SectorId).toNat < n from some)
    (Superblock.read_view _)).ends.bind (fun _ st₁ h₁ => ?_) fun _ _ h => .inr h
  obtain ⟨rfl, same⟩ := h₁
  rw [label]
  simp only
  by_cases valid : sb.isValid = true
  · rw [valid]
    simp only [Bool.not_true, Bool.false_eq_true, if_false]
    refine ends_note_bind fun st₂ hd hc => ?_
    rcases sb.create_map with ⟨covered, e⟩ | ⟨short, e⟩
    · rw [e]
      exact ends_pure ⟨⟨trivial, covered⟩, rfl, same.trans (same.good.same_of_disk_of_cache hd hc)⟩
    · rw [e]
      exact ends_violate_bind (.inl (.uncovered valid short))
  · rw [Bool.not_eq_true] at valid
    rw [valid]
    simp only [Bool.not_false, if_true]
    refine ends_note_bind fun st₂ _ _ => ?_
    exact (ends_throw (f := fun e _ => sb.Declines e) (.foreign valid)).bind
      (d := fun _ _ => False) (fun _ _ no => no.elim) fun _ _ h => .inl h

namespace Volume

/-- A volume is put on what the action leaves behind, and if there is none the action failed or
there is no such cache. -/
theorem start_cases (disk : Disk) (log : Log) (capacity : Nat) {x : Action Storage (Superblock × FreeMap)}
    {d : Superblock × FreeMap → Storage → Prop} {f : Failure → Storage → Prop}
    (h : ∀ cache, Cache.create capacity = .ok cache → Ends x ⟨disk, cache, log⟩ d f) :
    match start disk log capacity x with
    | .ok v => Cache.Fits capacity ∧
      ∃ r st, d r st ∧ v = ⟨⟨st, .bitmap r.2⟩, some r.1, #[], []⟩
    | .error aborted =>
      (∃ violation, Cache.create capacity = .error violation ∧
        aborted = ⟨.violation violation, disk, log⟩) ∨
      ∃ st, f aborted.cause st ∧ aborted.disk = st.disk ∧ aborted.log = st.log := by
  unfold start
  cases e : Cache.create capacity with
  | error violation => exact .inl ⟨violation, rfl, rfl⟩
  | ok cache =>
    have run := h cache e
    simp only
    cases e' : x ⟨disk, cache, log⟩ with
    | ok r st => exact ⟨Cache.fits_iff.2 ⟨cache, e⟩, r, st, run.ok e', rfl⟩
    | error cause st => exact .inr ⟨st, run.error e', rfl, rfl⟩

/-- What a disk has where a superblock is expected. -/
def label (disk : Disk) : Superblock := Superblock.ofSector (disk.sector 0)

theorem ends_recognise_label {disk : Disk} {log : Log} {capacity : Nat} {cache : Cache}
    (e : Cache.create capacity = .ok cache) :
    Ends recognise ⟨disk, cache, log⟩
      (fun r st => ((label disk).isValid = true ∧ (label disk).Covered) ∧
        r = (label disk, (label disk).map) ∧ st.logical = fun s => disk.sector s.toNat)
      fun e st => (label disk).Declines e ∨ disk.Fails (disk.Working 1) e st.disk := by
  obtain ⟨good, logical⟩ :=
    Storage.good_of_create e fun works : disk.Working 1 => works
  have label : Superblock.ofSector ((⟨disk, cache, log⟩ : Storage).logical 0) = label disk := by
    rw [logical]
    rfl
  refine (Storage.ends_recognise good (by decide) label).mono ?_ ?_
  · exact fun r st h => ⟨h.1, h.2.1, h.2.2.logical.trans logical⟩
  · rintro e st (declines | ⟨_, rfl, ⟨cause, rfl⟩, broken, failed, -⟩)
    · exact .inl declines
    · exact .inr ⟨⟨cause, rfl⟩, failed, broken⟩

/-- Whatever stands on a disk, it is opened or declined because of its label, unless the first
sector cannot be read or there cannot be such a cache. It is declined with a fault if the magic
number is wrong; but a label with the right number and too few bits in its bitmap ends in a
violation. -/
theorem open_decided_by_label (disk : Disk) (log : Log) (capacity : Nat) :
    match «open» disk log capacity with
    | .ok v => Cache.Fits capacity ∧ (label disk).isValid = true ∧ (label disk).Covered ∧
      v.superblock = some (label disk) ∧ v.space.allocator = .bitmap (label disk).map ∧
      v.nodes = #[] ∧ v.table = [] ∧ v.space.storage.logical = fun s => disk.sector s.toNat
    | .error aborted =>
      (∃ violation, Cache.create capacity = .error violation ∧
        aborted = ⟨.violation violation, disk, log⟩) ∨
      (label disk).Declines aborted.cause ∨
      disk.Fails (disk.Working 1) aborted.cause aborted.disk := by
  have cases := start_cases disk log capacity fun cache e => ends_recognise_label e
  unfold «open»
  cases opened : start disk log capacity recognise with
  | ok v =>
    rw [opened] at cases
    obtain ⟨fits, r, st, ⟨⟨valid, covered⟩, rfl, logical⟩, rfl⟩ := cases
    exact ⟨fits, valid, covered, rfl, rfl, rfl, rfl, logical⟩
  | error aborted =>
    rw [opened] at cases
    rcases cases with none | ⟨st, why, left, -⟩
    · exact .inl none
    · exact .inr (left ▸ why)

/-- A memory of 8 sectors whose superblock tells of 4097 sectors and one sector of bits. -/
def uncoveredMemory : Disk :=
  (Disk.memory 8).overwrite 0 ((Superblock.make 4097 1 1 0).store Sector.zero)

/-- That memory can be read, the magic number is right, and opening it ends in a violation. -/
theorem violation_of_uncovered : uncoveredMemory.Working 8 ∧
    ∃ aborted, «open» uncoveredMemory {} 4 = .error aborted ∧
      aborted.cause = .violation .bitmapTooSmall := by
  have works : uncoveredMemory.Working 8 := ⟨nofun, by decide, rfl⟩
  have works₁ : uncoveredMemory.Working 1 := ⟨nofun, by decide, rfl⟩
  have written : label uncoveredMemory = Superblock.make 4097 1 1 0 := by
    unfold label uncoveredMemory
    rw [Disk.sector, Disk.overwrite, Content.sector_put_self, Superblock.ofSector_store]
  have cases := start_cases uncoveredMemory {} 4 fun cache e => ends_recognise_label e
  refine ⟨works, ?_⟩
  unfold «open»
  cases opened : start uncoveredMemory {} 4 recognise with
  | ok v =>
    rw [opened] at cases
    obtain ⟨-, r, st, ⟨⟨-, covered⟩, -⟩, -⟩ := cases
    rw [written] at covered
    exact absurd covered (by decide)
  | error aborted =>
    rw [opened] at cases
    refine ⟨aborted, rfl, ?_⟩
    rcases cases with ⟨violation, none, -⟩ | ⟨st, declines | ⟨-, -, broken⟩, -⟩
    · cases none
    · rw [written] at declines
      generalize aborted.cause = e at declines
      cases declines with
      | foreign invalid => cases invalid
      | uncovered _ _ => rfl
    · exact absurd works₁ broken

end Volume

end SectorVolume
