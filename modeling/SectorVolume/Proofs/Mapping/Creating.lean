import SectorVolume.Proofs.Mapping.Filling
import SectorVolume.Volume.Inode

/-!
# Creating and dissolving trees

A record is given all its sectors or none: if that stops halfway they are given back, and nothing
but the failed transfers is left of it. A tree that is dissolved gives back exactly its sectors.
-/

namespace SectorVolume

open SectorVolume.Action

theorem dataSectors_le {length : Nat} (le : length ≤ maxFileSize) : dataSectors length ≤ 16524 := by
  have e : maxFileSize = 16524 * 512 := rfl
  unfold dataSectors sectorSize
  omega

/-- The sectors of a file can all be listed. -/
theorem listable_totalSectors {n : Nat} (le : n ≤ 16524) : FreeMap.Listable (totalSectors n) := by
  refine FreeMap.listable_of_le ?_
  unfold totalSectors indexSectors directBound indirectBound directBound directCount indexCount
    wordRange32
  split <;> split <;> omega

variable [Promise]

namespace Mapping

variable {m m' : Mapping} {t : Tree} {c : Fault}

/-- There were not `count` free sectors or a transfer failed, and no taken sector changed. The
sectors that had been handed out by then were written only if a transfer failed. -/
structure Denies (count : Nat) (m : Mapping) (c : Fault) (m' : Mapping) : Prop where
  sound : m'.space.Sound
  took : Stock.Took (· ∈ m.space.drawn count) [] m.space.stock m'.space.stock
  why : Stock.Denies count m.space.stock m'.space.stock c
  clean : Stock.Broke m.space.stock m'.space.stock c ∨
    Stock.Took Stock.nowhere [] m.space.stock m'.space.stock

/-- The tree `t` of fresh sectors was made below the record. Its data sectors hold zeros. -/
structure Creates (X : SectorId → Prop) (m : Mapping) (t : Tree) (m' : Mapping) : Prop where
  sound : m'.Sound t
  took : Stock.Took X t.sectors m.space.stock m'.space.stock
  drawn : t.sectors ⊆ m.space.drawn (totalSectors t.data.length)
  zero : ∀ id ∈ t.data, m'.space.stock.content id = Sector.zero
  rest : m'.record.withoutSectors = m.record.withoutSectors

theorem meets_note (h : m.space.Sound) (e : Event) {f : Fault → Mapping → Prop} :
    Meets (onStorage (Storage.note e)) m
      (fun _ m' => m.space.Rests m'.space ∧ m'.record = m.record) f :=
  (meets_onSpace (Space.meets_note h e (f := fun _ _ => False))).mono (fun _ _ h => h)
    fun _ _ no => no.1.elim

/-- All sectors of a file are taken, or none, and then the record names none. -/
theorem meets_populate (h : m.space.Sound) (bare : m.record.withoutSectors = m.record)
    {length : Nat} (le : length ≤ maxFileSize) :
    Meets (populate length) m
      (fun _ m' => ∃ t, Creates Stock.nowhere m t m' ∧ t.data.length = dataSectors length)
      (fun c m' => m.Denies (totalSectors (dataSectors length)) c m' ∧
        m'.record.withoutSectors = m'.record) := by
  obtain ⟨sp, r⟩ := m
  replace h : sp.Sound := h
  unfold populate
  rw [if_neg (by omega)]
  simp only
  by_cases none : totalSectors (dataSectors length) = 0
  · rw [if_pos none]
    have empty : dataSectors length = 0 := Nat.eq_zero_of_add_eq_zero_right none
    refine meets_pure ⟨⟨r, [], []⟩, ⟨⟨h, rfl, Tree.sound_empty bare⟩, ?_, ?_,
      fun id hid => (List.not_mem_nil hid).elim, rfl⟩, empty.symm⟩
    · rw [Tree.sectors_empty bare]
      exact .refl _
    · rw [Tree.sectors_empty bare]
      exact List.nil_subset _
  · rw [if_neg none]
    have listable := listable_totalSectors (dataSectors_le le)
    refine (meets_onSpace (m := ⟨sp, r⟩) (Space.meets_allocate h listable).run).bind
      (fun ids m₁ h₁ => ?_) fun c m₁ h₁ => ?_
    rotate_left
    · obtain ⟨⟨⟨sound, took, why⟩, -⟩, record⟩ := h₁
      have took := took.toTook
      exact ⟨⟨sound, took.mono fun _ _ no => no.elim, why, .inr took⟩, by rw [record]; exact bare⟩
    obtain ⟨sp₁, r₁⟩ := m₁
    obtain ⟨⟨⟨sound₁, many, took₁⟩, run⟩, record₁⟩ := h₁
    obtain rfl : r₁ = r := record₁
    replace took₁ := took₁.toTook
    have drawn : sp.drawn (totalSectors (dataSectors length)) = ids := Space.drawn_eq run
    refine (meets_note (m := ⟨sp₁, r₁⟩) sound₁ _ (f := fun _ _ => False)).bind
      (fun _ m₂ h₂ => ?_) fun _ _ no => no.elim
    obtain ⟨sp₂, r₂⟩ := m₂
    obtain ⟨rests, record₂⟩ := h₂
    obtain rfl : r₂ = r₁ := record₂
    have took₂ : Stock.Took Stock.nowhere ids sp.stock sp₂.stock :=
      took₁.trans_nil (Space.Rests.took rests) fun _ _ no => no
    have held : ∀ id ∈ ids, sp₂.stock.Held id := h.held_of_took took₂
    refine Meets.bind (d := fun (r : Except Fault Unit) m' => match r with
      | .ok _ => ∃ t, Fills ids ⟨sp₂, r₂⟩ t m' ∧ t.data.length = dataSectors length
      | .error c => sp₂.Spoils ids c m'.space)
      ((meets_fill (m := ⟨sp₂, r₂⟩) rests.sound (dataSectors_le le) took₂.nodup held many
        bare).attempt (fun _ _ h => h) fun _ _ h => h)
      (fun r m₃ h₃ => ?_) fun _ _ h => h
    cases r with
    | ok _ =>
      obtain ⟨t, fills, e⟩ := h₃
      refine meets_pure ⟨t, ⟨fills.sound, ?_, ?_, fills.zero, fills.rest⟩, e⟩
      · exact (took₂.fill fills.took).perm fills.perm.symm
      · rw [e, drawn]
        exact fills.perm.subset
    | error c =>
      obtain ⟨sound₃, took₃, broke, mended₃⟩ := h₃
      have took := took₂.fill took₃
      refine (meets_note sound₃ _ (f := fun _ _ => False)).bind (fun _ m₄ h₄ => ?_)
        fun _ _ no => no.elim
      obtain ⟨sp₄, r₄⟩ := m₄
      have rests₄ : m₃.space.Rests sp₄ := h₄.1
      have took₄ : Stock.Took Stock.nowhere ids sp.stock sp₄.stock :=
        took.trans_nil (Space.Rests.took rests₄) fun _ _ no => no
      have failed : sp.stock.failures < sp₄.stock.failures :=
        Nat.lt_of_le_of_lt took₂.failures (Nat.lt_of_lt_of_le broke.2 rests₄.failures)
      have mended : Stock.Mended ids sp.stock sp₄.stock :=
        (took₂.mended broke.2 mended₃).kept rests₄.failures rests₄.gave.kept
      refine meets_modifyRecord ?_
      refine (meets_onSpace (Space.meets_releaseAll rests₄.sound took₄.nodup
        (h.held_of_took took₄))).bind (fun _ m₅ h₅ => meets_fail ?_) fun c' m₅ h₅ => ?_
      · obtain ⟨⟨sound₅, gave, -⟩, record₅⟩ := h₅
        have undone := took₄.undone gave (List.Subset.refl _) fun _ => List.Subset.refl _
        have broke : Stock.Broke sp.stock m₅.space.stock c :=
          ⟨broke.1, Nat.lt_of_lt_of_le failed gave.failures⟩
        exact ⟨⟨sound₅, drawn ▸ undone, .inr ⟨broke, mended.gave failed gave⟩, .inl broke⟩,
          by rw [record₅]; rfl⟩
      · obtain ⟨⟨sound₅, gave, broke'⟩, record₅⟩ := h₅
        have undone := took₄.undone gave (List.Subset.refl _) fun _ => List.Subset.refl _
        exact ⟨⟨sound₅, drawn ▸ undone, .inr ⟨broke'.trans (Nat.le_of_lt failed),
          .of_lt failed broke'.2⟩, .inl (broke'.trans (Nat.le_of_lt failed))⟩, by rw [record₅]; rfl⟩

/-- The sectors of a tree are given back, all of them unless a transfer fails. -/
theorem meets_release (h : m.Sound t) (enough : dataSectors m.record.length.toNat ≤ t.data.length) :
    Meets release m
      (fun freed m' => freed = t.sectors.length ∧ m'.space.Sound ∧
        Stock.Gave t.sectors m.space.stock m'.space.stock ∧
        m'.record = m.record.withoutSectors)
      (fun c m' => m'.space.Sound ∧ Stock.Gave t.sectors m.space.stock m'.space.stock ∧
        Stock.Broke m.space.stock m'.space.stock c ∧ m'.record = m.record) := by
  unfold release
  refine meets_get ?_
  have reading := Space.meets_mapped h.space h.tree
  rw [h.record] at reading
  refine (meets_onSpace reading).bind (fun mapped m₁ h₁ => ?_) fun c m₁ h₁ => ?_
  · obtain ⟨⟨rfl, rests⟩, record⟩ := h₁
    simp only
    rw [if_neg (by omega)]
    have tree := h.tree.stays rests.took
    have releasing := Space.meets_releaseAll rests.sound tree.sound.nodup tree.sound.held
    refine (meets_onSpace releasing).bind (fun _ m₂ h₂ => ?_) fun c m₂ h₂ => ?_
    · refine meets_modifyRecord (meets_pure ⟨List.length_append.symm, h₂.1.1,
        rests.gave.trans h₂.1.2.1, ?_⟩)
      rw [h₂.2, record]
    · exact ⟨h₂.1.1, rests.gave.trans h₂.1.2.1, ⟨h₂.1.2.2.1,
        Nat.lt_of_le_of_lt rests.failures h₂.1.2.2.2⟩, by rw [h₂.2, record]⟩
  · obtain ⟨fails, record⟩ := h₁
    exact ⟨fails.1.sound, (Space.Rests.gave fails.1).mono (List.nil_subset _) fails.2.2, fails.2,
      record⟩

/-- A record is written to its own sector. -/
theorem meets_saveRecord (h : m.space.Sound) {sector : SectorId} (hs : m.space.stock.Usable sector)
    (r : Record) :
    Meets (onStorage (Volume.saveRecord sector r)) m
      (fun _ m' => m.space.Rewrites m'.space
        (Function.update m.space.stock.content sector r.toSector) ∧ m'.record = m.record)
      (fun c m' => m.space.Fails c m'.space ∧ m'.record = m.record) :=
  meets_onSpace (Space.meets_onStorage_put h hs.2.1
    (Storage.meets_replaceSector h.storage hs.lt r.toSector))

/-- The tree of a new inode is made and its record written, or nothing is taken. -/
theorem meets_createRecord (h : m.space.Sound) (bare : m.record.withoutSectors = m.record)
    {length : Nat} (le : length ≤ maxFileSize) (e : m.record.length.toNat = length)
    {sector : SectorId} (held : m.space.stock.Held sector) :
    Meets (Volume.createRecord sector length) m
      (fun _ m' => ∃ t, Creates (· = sector) m t m' ∧ t.data.length = dataSectors length ∧
        m'.space.stock.content sector = t.record.toSector)
      (m.Denies (totalSectors (dataSectors length))) := by
  unfold Volume.createRecord
  refine (meets_populate h bare le).bind (fun _ m₁ h₁ => ?_) fun _ _ h => h.1
  obtain ⟨t, creates, many⟩ := h₁
  have held₁ : m₁.space.stock.Held sector := creates.took.held held
  have fresh : sector ∉ t.sectors := fun hid => held.2 (creates.took.free sector hid)
  have sound := creates.sound
  refine meets_get ?_
  refine Meets.bind (d := fun (r : Except Fault Unit) m' => m'.record = m₁.record ∧ match r with
    | .ok _ => m₁.space.Rewrites m'.space
        (Function.update m₁.space.stock.content sector m₁.record.toSector)
    | .error c => m₁.space.Fails c m'.space)
    ((meets_saveRecord sound.space held₁.1 m₁.record).attempt (fun _ _ h => h.symm)
      fun _ _ h => h.symm) (fun r m₂ h₂ => ?_) fun _ _ h => h
  obtain ⟨record, h₂⟩ := h₂
  cases r with
  | ok _ =>
    have saved : Stock.Took (· = sector) [] m₁.space.stock m₂.space.stock :=
      h₂.took_put rfl
    refine meets_pure ⟨t, ⟨⟨h₂.sound, sound.record.trans record.symm, sound.tree.frame saved
      fun s hs e => fresh (e ▸ Tree.mem_sectors_blocks hs)⟩, ?_, creates.drawn, fun id hid => ?_, ?_⟩,
      many, ?_⟩
    · exact (creates.took.mono fun _ _ no => no.elim).trans_nil saved fun _ _ h => h
    · rw [saved.content (sound.tree.held id (Tree.mem_sectors_data hid))
        fun e => fresh (e ▸ Tree.mem_sectors_data hid)]
      exact creates.zero id hid
    · rw [record]
      exact creates.rest
    · rw [h₂.content, Function.update_self, sound.record]
  | error c =>
    have sound₂ : m₂.Sound t := ⟨h₂.1.sound, sound.record.trans record.symm,
      sound.tree.frame (Space.Rests.took h₂.1 (X := Stock.nowhere)) fun _ _ no => no⟩
    have took₂ := creates.took.trans_nil (Space.Rests.took h₂.1 (X := Stock.nowhere))
      fun _ _ h => h
    have failed : m.space.stock.failures < m₂.space.stock.failures :=
      Nat.lt_of_le_of_lt creates.took.failures h₂.2.2
    have enough : dataSectors m₂.record.length.toNat ≤ t.data.length := by
      have same : m₁.record.withoutSectors.length = m.record.withoutSectors.length :=
        congrArg Record.length creates.rest
      have same : m₁.record.length = m.record.length := same
      exact Nat.le_of_eq (by rw [record, same, e, many])
    have undone : ∀ {b : Stock}, Stock.Gave t.sectors m₂.space.stock b →
        Stock.Took (· ∈ m.space.drawn (totalSectors (dataSectors length))) [] m.space.stock b :=
      fun gave => (took₂.undone gave (List.Subset.refl _) fun _ => List.Subset.refl _).mono
        fun _ _ hs => many ▸ creates.drawn hs
    have mended : Stock.Mended t.sectors m.space.stock m₂.space.stock :=
      creates.took.mended h₂.2.2 (.of_kept (Space.Rests.gave h₂.1).kept)
    refine (meets_release sound₂ enough).bind (fun _ m₃ h₃ => meets_fail ?_) fun c' m₃ h₃ => ?_
    · obtain ⟨-, sound₃, gave, -⟩ := h₃
      have broke : Stock.Broke m.space.stock m₃.space.stock c :=
        ⟨h₂.2.1, Nat.lt_of_lt_of_le failed gave.failures⟩
      exact ⟨sound₃, undone gave, .inr ⟨broke, mended.gave failed gave⟩, .inl broke⟩
    · obtain ⟨sound₃, gave, broke', -⟩ := h₃
      have broke := broke'.trans (Nat.le_of_lt failed)
      exact ⟨sound₃, undone gave, .inr ⟨broke, .of_lt failed broke'.2⟩, .inl broke⟩

end Mapping

end SectorVolume
