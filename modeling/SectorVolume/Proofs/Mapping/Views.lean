import SectorVolume.Proofs.Mapping.Creating

/-!
# A map without holes

However a record came by its sectors, and wherever that was cut short, the entries that are there
form an unbroken beginning of the file. So looking up a byte, listing all sectors and making a byte
writable tell the same of every byte.
-/

namespace SectorVolume

open SectorVolume.Action

/-- The entries that are there come first. -/
def Unbroken {n : Nat} (entries : Vector SectorId n) : Prop :=
  ∀ i j : Fin n, i ≤ j → entries.get j ≠ 0 → entries.get i ≠ 0

theorem unbroken_listed {ids : List SectorId} (nonzero : ∀ id ∈ ids, id ≠ 0) (n : Nat) :
    Unbroken (listed n ids) := by
  intro i j le present
  rw [get_listed] at present ⊢
  have lt := (getD_ne_zero_iff nonzero).1 present
  exact (getD_ne_zero_iff nonzero).2 (Nat.lt_of_le_of_lt le lt)

namespace Record

/-- In every list of entries those that are there come first, and there are none in a list before
the one ahead of it is full. -/
structure NoHoles (L : SectorId → Sector) (r : Record) : Prop where
  direct : Unbroken r.direct
  directFull : r.indirect ≠ 0 → ∀ i : Fin 12, r.direct.get i ≠ 0
  first : r.indirect ≠ 0 → Unbroken (IndexBlock.ofSector (L r.indirect))
  firstFull : r.doubleIndirect ≠ 0 →
    r.indirect ≠ 0 ∧ ∀ i : Fin 128, (IndexBlock.ofSector (L r.indirect)).get i ≠ 0
  top : r.doubleIndirect ≠ 0 → Unbroken (IndexBlock.ofSector (L r.doubleIndirect))
  child : r.doubleIndirect ≠ 0 → ∀ i : Fin 128,
    (IndexBlock.ofSector (L r.doubleIndirect)).get i ≠ 0 →
      Unbroken (IndexBlock.ofSector (L ((IndexBlock.ofSector (L r.doubleIndirect)).get i)))
  childFull : r.doubleIndirect ≠ 0 → ∀ i j : Fin 128, i < j →
    (IndexBlock.ofSector (L r.doubleIndirect)).get j ≠ 0 →
      ∀ k : Fin 128,
        (IndexBlock.ofSector (L ((IndexBlock.ofSector (L r.doubleIndirect)).get i))).get k ≠ 0

variable {L : SectorId → Sector} {r : Record} {data children : List SectorId}

theorem Maps.noHoles (h : r.Maps L data children) : r.NoHoles L := by
  have present : ∀ {i}, data.getD i 0 ≠ 0 ↔ i < data.length := getD_ne_zero_iff h.nonzero_data
  have top : r.doubleIndirect ≠ 0 →
      IndexBlock.ofSector (L r.doubleIndirect) = listed 128 children := by
    intro some
    rw [(h.top some).2.2, IndexBlock.ofSector_sectorOf]
  have first : r.indirect ≠ 0 →
      IndexBlock.ofSector (L r.indirect) = listed 128 (chunk data 12) := by
    intro some
    rw [(h.first some).2, IndexBlock.ofSector_sectorOf]
  have child : ∀ {i : Nat}, i < children.length →
      IndexBlock.ofSector (L (children.getD i 0)) = listed 128 (chunk data (140 + 128 * i)) := by
    intro i lt
    rw [List.getD_eq_getElem _ _ lt, h.child i lt, IndexBlock.ofSector_sectorOf]
  constructor
  · rw [h.direct]
    exact unbroken_listed (fun id hid => h.nonzero_data id (List.mem_of_mem_take hid)) 12
  · intro some i
    have hi := i.isLt
    have long := (h.first some).1
    rw [show r.direct.get i = _ from h.direct_eq hi]
    exact present.2 (by omega)
  · intro some
    rw [first some]
    exact unbroken_listed (h.nonzero_chunk 12) 128
  · intro some
    obtain ⟨some', long, -⟩ := h.top some
    refine ⟨some', fun i => ?_⟩
    have hi := i.isLt
    rw [first some', get_listed, getD_chunk data 12 hi]
    exact present.2 (by omega)
  · intro some
    rw [top some]
    exact unbroken_listed h.nonzero_children 128
  · intro some i there
    rw [top some, get_listed] at there ⊢
    rw [child ((getD_ne_zero_iff h.nonzero_children).1 there)]
    exact unbroken_listed (h.nonzero_chunk _) 128
  · intro some i j before there k
    have hk := k.isLt
    have before : i.val < j.val := before
    rw [top some, get_listed] at there ⊢
    have lt := (getD_ne_zero_iff h.nonzero_children).1 there
    have long := h.full j.val lt
    rw [child (by omega), get_listed, getD_chunk data _ hk]
    exact present.2 (by omega)

end Record

namespace Mapping

variable {m m' : Mapping}

/-- The sectors that the record and its index blocks list. -/
def listing (m : Mapping) : MappedSectors := m.record.mappedIn m.space.storage.logical

variable [Promise]

/-- What others do to the storage and the allocator in between, which may even be replaced: they
keep the sectors of the record and do not write its index blocks. -/
structure Elsewhere (m m' : Mapping) : Prop where
  sound : m'.space.Sound
  record : m'.record = m.record
  kept : ∀ id ∈ m.listing.data ++ m.listing.index, m'.space.stock.Held id
  blocks : ∀ id ∈ m.listing.index, m'.space.stock.content id = m.space.stock.content id

/-- The record was new, and its map was only changed by populating and by making bytes writable,
whatever came of that. -/
inductive Grown : Mapping → Prop where
  | new {sp : Space} (h : sp.Sound) (length : UInt32) (isDirectory : Bool) :
    Grown ⟨sp, .make length isDirectory⟩
  | elsewhere {m m' : Mapping} (h : Grown m) (others : m.Elsewhere m') : Grown m'
  | populated {m m' : Mapping} {length : Nat} (h : Grown m)
    (bare : m.record.withoutSectors = m.record) (e : populate length m = .ok () m') : Grown m'
  | notPopulated {m m' : Mapping} {length : Nat} {failure : Failure} (h : Grown m)
    (bare : m.record.withoutSectors = m.record) (e : populate length m = .error failure m') :
    Grown m'
  | translated {m m' : Mapping} {offset : Nat} {x : Option SectorId} (h : Grown m)
    (e : translate offset true m = .ok x m') : Grown m'
  | notTranslated {m m' : Mapping} {offset : Nat} {failure : Failure} (h : Grown m)
    (e : translate offset true m = .error failure m') : Grown m'

theorem Sound.listing_eq {t : Tree} (h : m.Sound t) : m.listing = ⟨t.data, t.blocks⟩ := by
  unfold listing
  rw [← h.record]
  exact h.tree.mappedIn_eq

theorem Sound.elsewhere {t : Tree} (h : m.Sound t) (others : m.Elsewhere m') : m'.Sound t := by
  have kept := others.kept
  have blocks := others.blocks
  rw [h.listing_eq] at kept blocks
  exact ⟨others.sound, h.record.trans others.record.symm,
    h.tree.maps.congr fun id hid => blocks id hid, h.tree.nodup, kept⟩

theorem sound_bare (h : m.space.Sound) (bare : m.record.withoutSectors = m.record) :
    m.Sound ⟨m.record, [], []⟩ := ⟨h, rfl, Tree.sound_empty bare⟩

/-- Populating ends with a tree of as many data sectors as are needed, and without one if it
fails. -/
theorem meets_populate_any (h : m.space.Sound) (bare : m.record.withoutSectors = m.record)
    (length : Nat) :
    Meets (populate length) m
      (fun _ m' => ∃ t, m'.Sound t ∧ length ≤ maxFileSize ∧ t.data.length = dataSectors length)
      fun c m' => (∃ t, m'.Sound t) ∧
        (maxFileSize < length ∧ c = .sizeLimit length maxFileSize ∧ m' = m ∨
          length ≤ maxFileSize ∧
            Stock.Denies (totalSectors (dataSectors length)) m.space.stock m'.space.stock c) := by
  by_cases le : length ≤ maxFileSize
  · refine (meets_populate h bare le).mono ?_ ?_
    · rintro _ m' ⟨t, creates, many⟩
      exact ⟨t, creates.sound, le, many⟩
    · rintro c m' ⟨denies, bare'⟩
      exact ⟨⟨_, sound_bare denies.sound bare'⟩, .inr ⟨le, denies.why⟩⟩
  · have lt := Nat.not_le.1 le
    unfold populate
    rw [if_pos lt]
    refine (meets_fail (d := fun _ _ => False) ?_).bind (fun _ _ no => no.elim) fun _ _ h => h
    exact ⟨⟨_, sound_bare h bare⟩, .inl ⟨lt, rfl, rfl⟩⟩

/-- Making a byte writable keeps what is there and adds to it, whether it succeeds or not. -/
theorem meets_translate {t : Tree} (h : m.Sound t) (offset : Nat) :
    Meets (translate offset true) m
      (fun x m' => ∃ t', m'.Sound t' ∧ t.data <+: t'.data ∧ x = t'.data[offset / 512]? ∧
        (offset < maxFileSize → x.isSome))
      fun c m' => ∃ t', m'.Sound t' ∧ t.data <+: t'.data ∧
        Stock.Stopped (offset / 512 + 1 - t'.data.length) m.space.stock m'.space.stock c := by
  unfold translate
  rw [if_pos rfl]
  refine (meets_ensure h offset).mono ?_ ?_
  · rintro x m' ⟨t', grows, rfl, there, -⟩
    refine ⟨t', grows.sound, grows.grows.data, rfl, fun lt => ?_⟩
    rw [List.getElem?_eq_getElem (there lt)]
    rfl
  · rintro c m' ⟨t', grows, halts⟩
    exact ⟨t', grows.sound, grows.grows.data, halts.why⟩

theorem Grown.sound (h : m.Grown) : ∃ t, m.Sound t := by
  induction h with
  | new h length isDirectory => exact ⟨_, sound_bare h rfl⟩
  | elsewhere _ others ih =>
    obtain ⟨t, sound⟩ := ih
    exact ⟨t, sound.elsewhere others⟩
  | populated _ bare e ih =>
    obtain ⟨t, sound⟩ := ih
    obtain ⟨t', sound', -⟩ := (meets_populate_any sound.space bare _).ok e
    exact ⟨t', sound'⟩
  | notPopulated _ bare e ih =>
    obtain ⟨t, sound⟩ := ih
    obtain ⟨-, -, sound', -⟩ := (meets_populate_any sound.space bare _).ends.error e
    exact sound'
  | translated _ e ih =>
    obtain ⟨t, sound⟩ := ih
    obtain ⟨t', sound', -⟩ := (meets_translate sound _).ok e
    exact ⟨t', sound'⟩
  | notTranslated _ e ih =>
    obtain ⟨t, sound⟩ := ih
    obtain ⟨-, -, t', sound', -⟩ := (meets_translate sound _).ends.error e
    exact ⟨t', sound'⟩

/-- The record has no holes, and looking up a byte, listing the sectors and making the byte writable
tell the same of it. -/
structure Agrees (m : Mapping) : Prop where
  noHoles : m.record.NoHoles m.space.storage.logical
  /-- Looking up a byte finds the sector that is listed for it, if one is. It fails only with a
  transfer, and either way nothing changes. -/
  looks : ∀ offset, Meets (translate offset false) m
    (fun x m' => x = m.listing.data[offset / 512]? ∧ m.space.Rests m'.space ∧ m'.record = m.record)
    fun c m' => m.space.Fails c m'.space ∧ m'.record = m.record
  /-- So does listing the sectors. -/
  lists : Meets mapped m
    (fun listing m' => listing = m.listing ∧ m.space.Rests m'.space ∧ m'.record = m.record)
    fun c m' => m.space.Fails c m'.space ∧ m'.record = m.record
  /-- A byte that was made writable has the sector that is listed for it from then on, and no sector
  that was listed is dropped or moved. It fails only for want of sectors, of which no more were asked
  for than data sectors are still missing, or with a transfer. -/
  grows : ∀ offset, Meets (translate offset true) m
    (fun x m' => x = m'.listing.data[offset / 512]? ∧ (offset < maxFileSize → x.isSome) ∧
      m.listing.data <+: m'.listing.data)
    fun c m' => m.listing.data <+: m'.listing.data ∧
      Stock.Stopped (offset / 512 + 1 - m'.listing.data.length) m.space.stock m'.space.stock c
  /-- A record without sectors gets all that the length asks for. It gets none only if the length is
  beyond the limit, if there are fewer free sectors, or with a failed transfer. -/
  populates : ∀ length, m.record.withoutSectors = m.record → Meets (populate length) m
    (fun _ m' => m.listing.data <+: m'.listing.data ∧ length ≤ maxFileSize ∧
      m'.listing.data.length = dataSectors length)
    fun c m' => m.listing.data <+: m'.listing.data ∧
      (maxFileSize < length ∧ c = .sizeLimit length maxFileSize ∧ m' = m ∨
        length ≤ maxFileSize ∧
          Stock.Denies (totalSectors (dataSectors length)) m.space.stock m'.space.stock c)

/-- In a record that was only populated and made writable the views agree, whatever came of it. -/
theorem Grown.views_agree (h : m.Grown) : m.Agrees := by
  obtain ⟨t, sound⟩ := h.sound
  have listing := sound.listing_eq
  constructor
  case noHoles =>
    rw [← sound.record]
    exact sound.tree.maps.noHoles
  case looks =>
    intro offset
    have looking := meets_onSpace (Space.meets_lookup sound.space sound.tree offset)
    rw [sound.record] at looking
    rw [listing]
    unfold translate
    rw [if_neg Bool.false_ne_true]
    refine meets_get (looking.mono (fun x m' h' => ?_) fun _ _ h' => h')
    exact ⟨h'.1.1, h'.1.2, h'.2⟩
  case lists =>
    have reading := meets_onSpace (Space.meets_mapped sound.space sound.tree)
    rw [sound.record] at reading
    rw [listing]
    refine meets_get (reading.mono (fun r m' h' => ?_) fun _ _ h' => h')
    exact ⟨h'.1.1, h'.1.2, h'.2⟩
  case grows =>
    intro offset
    rw [listing]
    refine (meets_translate sound offset).mono ?_ ?_
    · rintro x m' ⟨t', sound', before, entry, there⟩
      rw [sound'.listing_eq]
      exact ⟨entry, there, before⟩
    · rintro c m' ⟨t', sound', before, why⟩
      rw [sound'.listing_eq]
      exact ⟨before, why⟩
  case populates =>
    intro length bare
    have none : m.listing.data = [] := by rw [(sound_bare sound.space bare).listing_eq]
    rw [none]
    refine (meets_populate_any sound.space bare length).mono ?_ fun c m' h' => ?_
    · rintro _ m' ⟨t', sound', le, many⟩
      rw [sound'.listing_eq]
      exact ⟨List.nil_prefix, le, many⟩
    · exact ⟨List.nil_prefix, h'.2⟩

omit [Promise] in
/-- A record of 1000 bytes over a queue of three free sectors has two data sectors. Byte 600 is looked
up in the second of them, and byte 1100 in none. -/
theorem views_agree_of_populated : ∃ (_ : Promise) (m m₁ m₂ : Mapping) (first second : SectorId),
    m.Grown ∧ m.listing.data = [first, second] ∧
      translate 600 false m = .ok (some second) m₁ ∧ translate 1100 false m = .ok none m₂ := by
  let promise : Promise := ⟨True, wordRange32⟩
  have disk : True → (Disk.memory wordRange32).Working wordRange32 := fun _ => ⟨nofun, by decide, rfl⟩
  obtain ⟨cache, hc⟩ : ∃ cache, Cache.create 1 = .ok cache := ⟨_, rfl⟩
  let sp : Space := ⟨⟨Disk.memory wordRange32, cache, {}⟩, .supplied .queue (Queue.ofList [1, 2, 3])⟩
  have free : ∀ id, sp.stock.free id ↔ id ∈ [1, 2, 3] := by
    intro id
    show id ∈ (Queue.ofList [1, 2, 3] : Queue SectorId).toList ↔ _
    rw [Queue.toList_ofList]
  have sound : sp.Sound := by
    refine ⟨(Storage.good_of_create hc disk).1, ?_, fun id hid =>
      ⟨?_, fun no => no, id.toNat_lt, id.toNat_lt⟩⟩
    · show (Queue.ofList [1, 2, 3] : Queue SectorId).toList.Nodup
      rw [Queue.toList_ofList]
      decide
    · rintro rfl
      exact absurd ((free 0).1 hid) (by decide)
  have new : Grown ⟨sp, .make 1000 false⟩ := .new sound 1000 false
  have populating := meets_populate (m := ⟨sp, .make 1000 false⟩) sound rfl
    (by decide : 1000 ≤ maxFileSize)
  cases e : populate 1000 ⟨sp, .make 1000 false⟩ with
  | error failure m =>
    -- none fails, and there are three free sectors
    obtain ⟨c, -, ⟨sound', took, why⟩, -⟩ := populating.ends.error e
    have clean : m.space.stock.failures = 0 := (sound'.storage.working trivial).clean
    have before : sp.stock.failures = 0 := rfl
    rcases why with ⟨-, short | failed⟩ | ⟨⟨-, failed⟩, -⟩
    · refine absurd (short [1, 2] (by decide) fun id hid => ?_) (by decide)
      refine took.unleaked (clean.trans before.symm) id ((free id).2 ?_) List.not_mem_nil
      exact List.mem_append_left [3] hid
    · exact absurd failed (by rw [clean]; exact Nat.not_lt_zero _)
    · exact absurd failed (by rw [clean]; exact Nat.not_lt_zero _)
  | ok _ m =>
    obtain ⟨t, creates, length⟩ := populating.ok e
    have grown : m.Grown := new.populated rfl e
    have listing := creates.sound.listing_eq
    obtain ⟨first, second, two⟩ := List.length_eq_two.1 (length.trans (by decide))
    -- no look fails on a disk that works
    have looks : ∀ offset, ∃ m', translate offset false m = .ok ([first, second][offset / 512]?) m' := by
      intro offset
      obtain ⟨x, m', run, entry, -⟩ := (grown.views_agree.looks offset).ends.returns
        fun _ _ ⟨_, _, fails, _⟩ => fails.1.sound.not_broke trivial fails.2
      rw [listing, two] at entry
      exact ⟨m', entry ▸ run⟩
    obtain ⟨m₁, second_found⟩ := looks 600
    obtain ⟨m₂, none_found⟩ := looks 1100
    exact ⟨promise, m, m₁, m₂, first, second, grown, by rw [listing, two], second_found, none_found⟩

end Mapping

end SectorVolume
