import SectorVolume.Proofs.Volume.Frames
import SectorVolume.Proofs.Volume.Removal

/-!
# What is taken for an inode

A sector that is no live inode is opened if its content looks like a record, and only then. Setting
up a volume leaves the content of all sectors behind the bitmap as it was, and so does handing out a
sector for an inode. So whoever opens what was not created may be given what the disk had before, or
what a file once had there. The superblock and a new bitmap do not look like records, and neither
does the sector of an inode that was released.
-/

namespace SectorVolume

open SectorVolume.Action

/-! ## What does not look like a record -/

/-- The magic number stands in word 16, so a superblock in front of zeros has none. -/
theorem Superblock.magic_store (sb : Superblock) :
    (Record.ofSector (sb.store Sector.zero)).magic = 0 := by
  have beyond : ∀ i (hi : i < 512), 24 ≤ i → (sb.store Sector.zero)[i] = 0 := by
    intro i hi behind
    unfold store
    rw [Sector.getElem_overlay_of_not_mem _ hi (.inr (by simpa using behind)), Sector.getElem_zero]
  show Sector.word32 _ 16 = 0
  unfold Sector.word32
  rw [beyond _ _ (by decide), beyond _ _ (by decide), beyond _ _ (by decide), beyond _ _ (by decide)]
  rfl

namespace FreeMap

/-- Of the first four bits of the magic number only the third is set. In a new bitmap bits are clear
from the first free sector up to the end of the volume, so no set bit is between clear ones. -/
theorem magic_ne_of_fresh {m : FreeMap} {b : Sector} {reserved first : Nat}
    (h : ∀ j : Fin 4096, b.bit j = m.fresh reserved (first + j)) :
    (Record.ofSector b).magic ≠ recordMagic := by
  intro e
  have word : b.word32 16 = recordMagic := e
  have byte : b[64] = 0x44 := by
    have low := congrArg (Word.byte32 · 0) word
    unfold Sector.word32 at low
    exact (Word.byte32_of32_zero ..).symm.trans low
  have bit : ∀ r : Fin 8, m.fresh reserved (first + (512 + r.val)) = Bit.isSet 0x44 r := by
    intro r
    have hr := r.isLt
    rw [← byte, ← Sector.bit_eq b ⟨512 + r.val, by omega⟩ (by decide) hr rfl]
    exact (h ⟨512 + r.val, _⟩).symm
  have clear := bit 0
  have set := bit 2
  have clear' := bit 3
  unfold fresh at clear set clear'
  rw [show Bit.isSet 0x44 _ = false by decide] at clear clear'
  rw [show Bit.isSet 0x44 _ = true by decide] at set
  simp only [Bool.or_eq_false_iff, Bool.or_eq_true, decide_eq_false_iff_not, decide_eq_true_eq] at *
  omega

end FreeMap

/-- Nothing that setting up a volume writes looks like a record. -/
theorem Storage.SetUp.magic_ne {total : UInt32} {time : Int64} {L L' : SectorId → Sector}
    (h : SetUp total time L L') {s : SectorId} (hs : s.toNat < 1 + bitmapSectors total.toNat) :
    (Record.ofSector (L' s)).magic ≠ recordMagic := by
  by_cases first : s = 0
  · rw [first, h.first, Superblock.magic_store]
    decide
  · have positive : 1 ≤ s.toNat := Nat.pos_of_ne_zero fun e => first (UInt32.toNat_inj.1 e)
    have block : (FreeMap.ofTotal total.toNat).block (s.toNat - 1) = s := by
      show UInt32.ofNat (1 + (s.toNat - 1)) = s
      rw [Nat.add_sub_cancel' positive, UInt32.ofNat_toNat]
    have bits : ∀ j : Fin 4096, (L' s).bit j = (FreeMap.ofTotal total.toNat).fresh
        (1 + bitmapSectors total.toNat) ((s.toNat - 1) * 4096 + j) := by
      intro j
      rw [← h.bits _ (by omega), FreeMap.bit_eq j rfl, block]
    exact FreeMap.magic_ne_of_fresh bits

namespace Volume

variable {disk : Disk} {log : Log} {total : UInt32} {capacity : Nat} {time : Int64}
  {v v' : Volume} {c c' : Client} {s : SectorId} {floor : Nat}

/-! ## Whoever asks -/

/-- The states that requests of any kind lead to from a new volume: also such as are about sectors
that are no inodes, and about nodes that were closed. -/
inductive Asked (disk : Disk) (log : Log) (total : UInt32) (capacity : Nat) (time : Int64) :
    Volume → Prop where
  | format {v : Volume} (h : format disk log total capacity time = .ok v) :
    Asked disk log total capacity time v
  | answered {v v' : Volume} {r : Request} {a : r.Answer} (h : Asked disk log total capacity time v)
    (e : r.perform v = .ok a v') : Asked disk log total capacity time v'
  | failed {v v' : Volume} {r : Request} {e' : Failure} (h : Asked disk log total capacity time v)
    (e : r.perform v = .error e' v') : Asked disk log total capacity time v'

/-- The cache of a volume of `total` sectors is intact. -/
def Labelled (total : UInt32) (time : Int64) (v : Volume) : Prop :=
  v.space.Intact ∧ v.superblock = some (Superblock.ofTotal total time)

theorem framed_labelled (total : UInt32) (time : Int64) :
    Framed (fun _ => True) (fun _ => True) (Labelled total time) :=
  ⟨fun _ _ h intact => ⟨intact h.1, h.2⟩, fun _ _ _ h _ => h, fun _ _ h _ => h,
    fun _ _ _ h _ => h, fun _ _ h => h⟩

theorem Asked.labelled (h : Asked disk log total capacity time v) : Labelled total time v := by
  have frame := framed_labelled total time
  induction h with
  | format e =>
    let : Promise := ⟨False, wordRange32⟩
    have works : Promise.works → disk.Working Promise.sectors := False.elim
    have cases := format_cases log capacity time works (Nat.le_of_lt total.toNat_lt) (Nat.le_refl _)
      (room_of_format e)
    rw [e] at cases
    exact ⟨cases.1.storage, cases.1.superblock⟩
  | @answered _ _ r _ _ e ih => exact (frame.perform r (fun _ _ => trivial) (fun _ _ => trivial) _ ih).ok e
  | @failed _ _ r _ _ e ih => exact (frame.perform r (fun _ _ => trivial) (fun _ _ => trivial) _ ih).error e

/-- Opening `s` yields the node that somebody has open, or a new one if there is none and the
content looks like a record. It is refused outside the volume, while the inode is being given back,
and if the content does not look like a record; otherwise it fails only because a transfer does. -/
def Judged (total : UInt32) (s : SectorId) (v : Volume) : Prop :=
  Ends (openInode s) v
    (fun id _ => s < total ∧ (v.table.lookup s = some id ∧ 0 < (v.node id).opens ∨
      v.table.lookup s = none ∧ v.magicAt s = recordMagic))
    fun e v' => total ≤ s ∧ e = .fault (.outOfRange s total) ∨ s < total ∧
      ((∃ id, v.table.lookup s = some id ∧ (v.node id).opens = 0) ∧ e = .fault (.released s) ∨
        v.table.lookup s = none ∧
          (v.magicAt s ≠ recordMagic ∧ e = .fault (.corrupted s (v.magicAt s)) ∨
            (∃ cause, e = .fault (.device cause)) ∧
              v.space.storage.disk.failures < v'.space.storage.disk.failures))

theorem Asked.judged (h : Asked disk log total capacity time v) (s : SectorId) : v.Judged total s := by
  let : Promise := ⟨False, wordRange32⟩
  obtain ⟨intact, label⟩ := h.labelled
  have inside : (∀ sb, v.superblock = some sb → s < sb.totalSectors) → s < total := fun h => h _ label
  refine (meets_openSector intact fun _ => s.toNat_lt).ends.mono ?_ ?_
  · intro id v' finds
    cases finds with
    | shared within entry opens => exact ⟨inside within, .inl ⟨entry, opens⟩⟩
    | new within absent valid _ => exact ⟨inside within, .inr ⟨absent, valid⟩⟩
  · rintro _ v' ⟨e, rfl, -, rejects⟩
    cases rejects with
    | outside label' outside =>
      cases label.symm.trans label'
      exact .inl ⟨outside, rfl⟩
    | closed within entry closed => exact .inr ⟨inside within, .inl ⟨⟨_, entry, closed⟩, rfl⟩⟩
    | invalid within absent invalid =>
      exact .inr ⟨inside within, .inr ⟨absent, .inl ⟨invalid, rfl⟩⟩⟩
    | broke within absent broke =>
      obtain ⟨⟨cause, rfl⟩, failed⟩ := broke
      exact .inr ⟨inside within, .inr ⟨absent, .inr ⟨⟨cause, rfl⟩, failed⟩⟩⟩

/-! ## A client that keeps the rules -/

/-- Opening `s` succeeds if `magic` is the magic number of a record, and otherwise is refused
because of it. -/
def Decides (v : Volume) (s : SectorId) (magic : UInt32) : Prop :=
  Ends (openInode s) v (fun _ _ => magic = recordMagic)
    fun e _ => magic ≠ recordMagic ∧ e = .fault (.corrupted s magic)

section

variable [Promise]

/-- On a disk that works a sector that is no live inode is judged by its content. -/
theorem Known.decides (h : v.Known floor total time c) (works : Promise.works) (inside : s < total)
    (dead : s ∉ c.live) : v.Decides s (v.magicAt s) := by
  obtain ⟨_, inv⟩ := h.inv
  have floor_eq : v.space.stock.failures = floor := by
    have clean := inv.clean works
    have since := inv.owns.since
    omega
  have entry : ∀ {id}, v.table.lookup s ≠ some id := by
    intro id e
    rcases (inv.tabled.entry s id e).2.2 with ⟨-, live⟩ | ⟨-, doomed⟩
    · exact dead live
    · rw [inv.undoomed floor_eq] at doomed
      exact List.not_mem_nil doomed
  refine (meets_openSector inv.space.storage h.reaches.there).ends.mono ?_ ?_
  · intro id v' finds
    cases finds with
    | shared _ there _ => exact absurd there entry
    | new _ _ valid _ => exact valid
  · rintro _ v' ⟨e, rfl, idles, rejects⟩
    cases rejects with
    | outside label outside =>
      cases h.label.symm.trans label
      exact absurd outside (UInt32.not_le.2 inside)
    | closed _ there _ => exact absurd there entry
    | invalid _ _ invalid => exact ⟨invalid, rfl⟩
    | broke _ _ broke =>
      obtain ⟨_, inv'⟩ := (inv.idle idles).inv
      exact absurd works (inv'.not_broke broke)

/-- Behind the end of a volume there is nothing to open. -/
theorem Known.outside (h : v.Known floor total time c) (outside : total ≤ s) :
    Ends (openInode s) v (fun _ _ => False) fun e _ => e = .fault (.outOfRange s total) := by
  obtain ⟨_, inv⟩ := h.inv
  have no_less : ¬ ∀ sb, v.superblock = some sb → s < sb.totalSectors := fun inside =>
    UInt32.not_le.2 (inside _ h.label) outside
  have entry : ∀ {id}, v.table.lookup s ≠ some id := fun e =>
    no_less fun _ label => inv.inside (inv.held_entry e).1 label
  refine (meets_openSector inv.space.storage h.reaches.there).ends.mono ?_ ?_
  · intro id v' finds
    cases finds with
    | shared _ there _ => exact entry there
    | new inside _ _ _ => exact no_less inside
  · rintro _ v' ⟨e, rfl, -, rejects⟩
    cases rejects with
    | outside label _ =>
      cases h.label.symm.trans label
      rfl
    | closed _ there _ => exact absurd there entry
    | invalid inside _ _ => exact absurd inside no_less
    | broke inside _ _ => exact absurd inside no_less

/-- A sector that waits for an inode keeps its content as long as it waits. -/
theorem Steps.blank (h : v.Known floor total time c) (blank : s ∈ c.blank)
    (steps : Steps (fun _ _ _ _ c' => s ∈ c'.blank) v c v' c') :
    v'.Known floor total time c' ∧ s ∈ c'.blank ∧ v'.magicAt s = v.magicAt s := by
  induction steps with
  | refl => exact ⟨h, blank, rfl⟩
  | tail _ step kind ih =>
    obtain ⟨known, before, same⟩ := ih
    refine ⟨known.step step, kind, Eq.trans ?_ same⟩
    exact congrArg (fun b => (Record.ofSector b).magic)
      ((known.moves step).spared.blank s before kind)

end

/-- Whatever was asked before, opening a sector depends on its node and its present content only.

On a disk that works, and with a client that keeps the rules, a live inode can always be opened, and
a sector that is no live inode is opened exactly if its content has the magic number of a record.
After a volume was set up this is what the disk had before, behind the superblock and the bitmap; a
sector that was handed out for an inode has what it had before; and the sector of a released inode
has no such number until it is taken again. -/
theorem found_by_content (disk : Disk) (log : Log) (total : UInt32) (capacity : Nat) (time : Int64)
    (s : SectorId) :
    (∀ v, Asked disk log total capacity time v → v.Judged total s) ∧
    ∀ v c, disk.Working total.toNat → Probed disk log total capacity time v c →
      (s ∈ c.live → Ends (openInode s) v (fun _ _ => True) fun _ _ => False) ∧
      (total ≤ s → Ends (openInode s) v (fun _ _ => False) fun e _ =>
        e = .fault (.outOfRange s total)) ∧
      (s < total → s ∉ c.live → v.Decides s (v.magicAt s)) ∧
      (Volume.format disk log total capacity time = .ok v → s < total →
        if s.toNat < 1 + bitmapSectors total.toNat then
          Ends (openInode s) v (fun _ _ => False) fun e _ => e = .fault (.corrupted s (v.magicAt s))
        else v.Decides s (Record.ofSector (disk.sector s.toNat)).magic) ∧
      (∀ v₀ c₀ v₁, Probed disk log total capacity time v₀ c₀ → allocateInode v₀ = .ok s v₁ →
        Steps (fun _ _ _ _ c' => s ∈ c'.blank) v₁ (Request.answered c₀ v₁ .allocateInode s) v c →
          v.Decides s (v₀.magicAt s)) ∧
      ∀ id, Removed disk log total capacity time s id v c .gone →
        Ends (openInode s) v (fun _ _ => False) fun e _ => e = .fault (.corrupted s 0) := by
  refine ⟨fun v asked => asked.judged s, fun v c works h => ?_⟩
  let : Promise := promise disk total
  have known : ∀ {v c}, Probed disk log total capacity time v c → v.Known disk.failures total time c :=
    fun h => h.promised
  obtain ⟨trees, inv⟩ := (known h).inv
  refine ⟨fun live => ?_, (known h).outside,
    fun inside dead => (known h).decides works inside dead,
    fun new inside => ?_, fun v₀ c₀ v₁ h₀ e steps => ?_, fun id removed => ?_⟩
  · refine (meets_openInode inv live).ends.mono (fun _ _ _ => trivial) ?_
    rintro _ v' ⟨e, rfl, leads, broke⟩
    obtain ⟨_, inv'⟩ := leads.inv
    exact inv'.not_broke broke works
  · have fresh := known (.format new)
    have judged := fresh.decides works inside List.not_mem_nil
    have setUp : Storage.SetUp total time (fun s => disk.sector s.toNat) v.space.storage.logical := by
      have cases := format_cases log capacity time (fun works => works) (Nat.le_refl _)
        (Nat.le_of_lt total.toNat_lt) h.room
      rw [new] at cases
      exact cases.2.2
    by_cases metadata : s.toNat < 1 + bitmapSectors total.toNat
    · rw [if_pos metadata]
      exact judged.mono (fun _ _ valid => setUp.magic_ne metadata valid) fun _ _ refused => refused.2
    · rw [if_neg metadata]
      have content := setUp.others s (Nat.not_lt.1 metadata)
      unfold magicAt at judged
      rwa [content] at judged
  · have allowed : Request.allocateInode.Allowed c₀ := trivial
    obtain ⟨_, inv₀⟩ := (known h₀).inv
    have step : Request.allocateInode.Step v₀ c₀ v₁ (Request.answered c₀ v₁ .allocateInode s) :=
      .answered allowed e
    obtain ⟨-, -, content⟩ := (Request.ends_perform inv₀ .allocateInode allowed).ok e
    obtain ⟨after, blank, same⟩ := steps.blank ((known h₀).step step) List.mem_cons_self
    have before : v₁.magicAt s = v₀.magicAt s :=
      congrArg (fun b => (Record.ofSector b).magic) content
    rw [← before, ← same]
    have waits := (inv.held_inode (Client.mem_inodes_blank blank)).1
    exact after.decides works (inv.inside waits after.label) (inv.not_live_of_blank blank).1
  · have traced := removed.traced (fun works => works) (Nat.le_refl _) (Nat.le_of_lt total.toNat_lt)
    have vacated : v.Vacated s := traced.left
    have dead : s ∉ c.live := fun live =>
      (inv.held_inode (Client.mem_inodes_live live)).2 vacated.free
    have judged := (known h).decides works
      (inv.inside traced.entry.1 (known h).label) dead
    rw [vacated.magicAt_eq] at judged
    exact judged.mono (fun _ _ valid => absurd valid (by decide)) fun _ _ refused => refused.2

/-- In a small memory a file is opened, and the first sector behind the memory is not. -/
theorem found_by_content_of_open_file : ∃ v c s,
    Probed (Disk.memory 16) {} 16 1 0 v c ∧ Ends (openInode s) v (fun _ _ => True) (fun _ _ => False) ∧
      Ends (openInode 16) v (fun _ _ => False) fun e _ => e = .fault (.outOfRange 16 16) := by
  obtain ⟨v, s, id, run, -, -⟩ := exists_open_file
  have works : (Disk.memory 16).Working (16 : UInt32).toNat := working_memory
  obtain ⟨-, onward⟩ := found_by_content (Disk.memory 16) {} 16 1 0 s
  obtain ⟨-, behind⟩ := found_by_content (Disk.memory 16) {} 16 1 0 16
  obtain ⟨live, -⟩ := onward v _ works run.probed
  obtain ⟨-, outside, -⟩ := behind v _ works run.probed
  exact ⟨v, _, s, run.probed, live (List.mem_singleton_self s), outside (by decide)⟩

/-- A small memory that once had an inode in sector 5. -/
def usedMemory : Disk := (Disk.memory 16).overwrite 5 (Record.make 0 false).toSector

theorem working_usedMemory : usedMemory.Working 16 := ⟨nofun, by decide, rfl⟩

/-- When a volume was just set up on that memory, where no transfer fails, opening sector 5 yields a
node although no inode was created. -/
theorem opened_after_format : usedMemory.Working 16 ∧ ∃ v id v', format usedMemory {} 16 1 0 = .ok v ∧
    openInode 5 v = .ok id v' := by
  let : Promise := promise usedMemory 16
  obtain ⟨v, new⟩ := exists_small_volume working_usedMemory
  have known := (Probed.format new).known (fun works => works) (Nat.le_refl _) (by decide)
  have cases := format_cases {} 1 0 (fun works => works) (Nat.le_refl (16 : UInt32).toNat)
    (by decide) (by decide)
  rw [new] at cases
  have old : v.magicAt 5 = recordMagic := by
    have behind : v.space.storage.logical 5 = (Record.make 0 false).toSector :=
      (cases.2.2.others 5 (by decide)).trans (Content.sector_put_self ..)
    unfold magicAt
    rw [behind, Record.ofSector_toSector]
    rfl
  have judged := known.decides working_usedMemory (by decide : (5 : SectorId) < 16) List.not_mem_nil
  cases e : openInode 5 v with
  | ok id v' => exact ⟨working_usedMemory, v, id, v', new, e⟩
  | error f v' => exact absurd old (judged.error e).1

end Volume

end SectorVolume
