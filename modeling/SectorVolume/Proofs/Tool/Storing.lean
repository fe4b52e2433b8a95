import SectorVolume.Proofs.Volume.Images
import SectorVolume.Tool.Run

/-!
# What commands do to a volume

Copying a file in makes one more live inode, which has the bytes if all of them were written.
Copying out reads them. Removing gives back the sector of the inode and those below it, and counts
them. All other files stay as they are.
-/

namespace SectorVolume

open SectorVolume.Action

namespace Client

variable {c : Client} {id : NodeId} {s : SectorId}

theorem closed_of_kept (kept : id ∉ c.handles.removed) : c.closed id s = c.drop id :=
  if_neg fun dead => kept dead.1

theorem closed_of_dead (dead : (c.drop id).handles.Dead id) : c.closed id s = (c.drop id).lose s :=
  if_pos dead

end Client

namespace Tool

open Volume (Matches ends_getNode)

variable [Promise] {v : Volume} {total : UInt32} {time : Int64} {live : List SectorId} {s : SectorId}
  {c : Content} {handles : Handles}

/-- All bytes of an inode are read. -/
theorem ends_retrieve (h : v.Serves total time ⟨[], live, [], .empty⟩) (hs : s ∈ live) :
    Ends (retrieve s) v (fun bytes _ => bytes = v.bytes s) fun _ _ => False := by
  refine (h.ends_openInode hs).bind (fun id v₁ h₁ => ?_) fun _ _ no => no
  obtain ⟨serves₁, shows, -, same₁⟩ := h₁
  have hid : id ∈ [id] := List.mem_singleton_self id
  refine ends_getNode ?_
  refine (serves₁.ends_readAt hid shows.sector 0 _).bind (fun bytes v₂ h₂ => ?_) fun _ _ no => no
  obtain ⟨serves₂, sector₂, rfl, -⟩ := h₂
  refine (serves₂.ends_closeInode hid sector₂).bind (fun _ v₃ h₃ => ends_pure ?_) fun _ _ no => no
  rw [shows.length, (same₁ s hs).bytes, Nat.zero_add, ← Volume.size_bytes, Array.extract_size]

/-- All bytes are stored in a new inode if there is room for them, and else a beginning of them, unless
not even the inode finds a sector. -/
theorem ends_store (h : v.Serves total time ⟨[], live, [], .empty⟩) (mirrors : v.Mirrors c)
    (bytes : Bytes) :
    Ends (store bytes) v
      (fun r v' => (∃ handles, v'.Serves total time ⟨[], r.1 :: live, [], handles⟩) ∧
        v'.space.storage.Flushed ∧ r.2 ≤ bytes.size ∧ (∀ s' ∈ live, s' ≠ r.1 ∧ Matches v v' s') ∧
        (r.2 = bytes.size → v'.Stores r.1 bytes ∧
          v'.spare total + (totalSectors (dataSectors bytes.size) + 1) = v.spare total) ∧
        (bytes.size ≤ maxFileSize → totalSectors (dataSectors bytes.size) < v.spare total →
          r.2 = bytes.size))
      fun e v' => e = .fault (.exhausted 1) ∧ v'.Mirrors c ∧ v.spare total = 0 := by
  refine (h.ends_allocateInode.and (h.mirrors_allocateInode mirrors)).bind (fun s v₁ h₁ => ?_) ?_
  swap
  · rintro e v₁ ⟨⟨rfl, none⟩, mirrors₁⟩
    exact ⟨rfl, mirrors₁, none⟩
  obtain ⟨⟨serves₁, same₁⟩, -⟩ := h₁
  refine (serves₁.ends_createInode (List.mem_singleton_self s) false).bind (fun _ v₂ h₂ => ?_)
    fun _ _ no => no.elim
  obtain ⟨serves₂, empty₂, none₂, same₂⟩ := h₂
  have blank : [s].erase s = [] := List.erase_cons_head ..
  simp only [blank] at serves₂
  have fresh : s ∉ live := by
    obtain ⟨_, inv⟩ := serves₂.inv
    exact (List.nodup_cons.1 inv.owns.nodup_live).1
  refine (serves₂.ends_openInode List.mem_cons_self).bind (fun id v₃ h₃ => ?_) fun _ _ no => no.elim
  obtain ⟨serves₃, shows, allowed, same₃⟩ := h₃
  have hid : id ∈ [id] := List.mem_singleton_self id
  refine (serves₃.ends_writeAt hid shows.sector bytes 0).bind (fun written v₄ h₄ => ?_)
    fun _ _ no => no.elim
  obtain ⟨serves₄, sector₄, le, bytes₄, same₄, snug, fits⟩ := h₄
  refine (serves₄.ends_closeInode hid sector₄).bind (fun _ v₅ h₅ => ?_) fun _ _ no => no.elim
  obtain ⟨serves₅, -, same₅⟩ := h₅
  rw [Client.closed_of_kept (by exact List.not_mem_nil)] at serves₅ same₅
  refine serves₅.ends_close.bind (fun _ v₆ h₆ => ends_pure ?_) fun _ _ no => no.elim
  obtain ⟨serves₆, flushed, same₆⟩ := h₆
  replace same₅ : ∀ s' ∈ s :: live, Matches v₄ v₅ s' := fun s' hs' => same₅ s' hs' hs'
  have after : ∀ s' ∈ s :: live, Matches v₄ v₆ s' := fun s' hs' => (same₅ s' hs').trans (same₆ s' hs')
  have before : ∀ s' ∈ live, Matches v v₃ s' := fun s' hs' =>
    ((same₁ s' hs').trans (same₂ s' hs')).trans (same₃ s' (List.mem_cons_of_mem s hs'))
  have others : ∀ s' ∈ live, s' ≠ s ∧ Matches v v₆ s' := by
    intro s' hs'
    have ne : s' ≠ s := fun e => fresh (e ▸ hs')
    have later : s' ∈ s :: live := List.mem_cons_of_mem s hs'
    exact ⟨ne, ((before s' hs').trans (same₄ s' later ne)).trans (after s' later)⟩
  have there : s ∈ s :: live := List.mem_cons_self
  have without : (s :: live).erase s = live := List.erase_cons_head ..
  have start : v.Serves total time ⟨[], (s :: live).erase s, [], .empty⟩ := without.symm ▸ h
  have mapped₃ : v₃.mappedOf s = ⟨[], []⟩ := by rw [(same₃ s there).mapped, none₂]
  refine ⟨⟨_, serves₆⟩, flushed, le, others, fun all => ?_, fun small room => ?_⟩
  · replace all : written = bytes.size := all
    obtain ⟨data, index⟩ := snug (by rw [mapped₃]) all
    rw [Nat.zero_add, all] at data index
    have stores : v₆.Stores s bytes := by
      refine (after s there).stores (serves₄.stores there ?_ data index)
      rw [bytes₄, (same₃ s there).bytes, empty₂, Bytes.overwritten_empty]
      split
      · next none => exact (Array.eq_empty_of_size_eq_zero (all.symm.trans none)).symm
      · rw [all, Array.extract_size]
    have less := serves₆.spare_add_of_erase start there fun s' hs' =>
      (others s' (without ▸ hs')).2.mapped.symm
    rw [stores.snug] at less
    exact ⟨stores, less⟩
  · have less := serves₃.spare_add_of_erase start there fun s' hs' =>
      (before s' (without ▸ hs')).mapped.symm
    rw [mapped₃] at less
    replace less : v₃.spare total + 1 = v.spare total := less
    show written = bytes.size
    by_cases some : 0 < bytes.size
    · have enough := fits (allowed rfl) some (by omega)
      refine enough.complete_iff.2 (Nat.le_trans ?_ (Nat.le_of_lt_succ (less ▸ room)))
      rw [mapped₃, Nat.zero_add]
      exact MappedSectors.lacking_le ..
    · omega

/-- Counting the free sectors leaves the disk as it is. -/
theorem alike_freeCount (h : v.Serves total time ⟨[], live, [], handles⟩)
    (flushed : v.space.storage.Flushed) :
    Ends Volume.freeCount v
      (fun count v' => v.space.storage.disk.content.Alike v'.space.storage.disk.content ∧
        count = (FreeMap.ofTotal total.toNat).clearBits v.space.storage.logical)
      fun _ _ => False := by
  obtain ⟨_, inv⟩ := h.inv
  have mirrors := inv.space.storage.mirrors h.works flushed
  have counting := Volume.ends_onSpace
    (Storage.readable_mirrors.freeCount.left.preserves v.space mirrors)
  refine (h.ends_freeCount.and counting).mono ?_ fun _ _ h => h.1
  rintro count v' ⟨⟨-, counted, -⟩, mirrors', -⟩
  exact ⟨mirrors'.disk, counted⟩

/-- The sector of an inode and all sectors below it are given back. -/
theorem ends_discard (h : v.Serves total time ⟨[], live, [], .empty⟩) (hs : s ∈ live) :
    Ends (discard s) v
      (fun freed v' => freed = (v.mappedOf s).data.length + (v.mappedOf s).index.length + 1 ∧
        ∃ (v₁ : Volume) (handles : Handles), v₁.Serves total time ⟨[], live.erase s, [], handles⟩ ∧
          v₁.space.storage.Flushed ∧
          v₁.space.storage.disk.content.Alike v'.space.storage.disk.content ∧
          (∀ s' ∈ live.erase s, Matches v v₁ s') ∧
          (FreeMap.ofTotal total.toNat).clearBits v₁.space.storage.logical =
            (FreeMap.ofTotal total.toNat).clearBits v.space.storage.logical + freed)
      fun _ _ => False := by
  refine h.ends_freeCount.bind (fun before v₁ h₁ => ?_) fun _ _ no => no
  obtain ⟨serves₁, counted, same₁⟩ := h₁
  refine (serves₁.ends_openInode hs).bind (fun id v₂ h₂ => ?_) fun _ _ no => no
  obtain ⟨serves₂, shows, -, same₂⟩ := h₂
  have hid : id ∈ [id] := List.mem_singleton_self id
  refine (serves₂.ends_remove hid shows.sector).bind (fun _ v₃ h₃ => ?_) fun _ _ no => no
  obtain ⟨serves₃, sector₃, same₃⟩ := h₃
  refine (serves₃.ends_closeInode hid sector₃).bind (fun _ v₄ h₄ => ?_) fun _ _ no => no
  obtain ⟨serves₄, -, same₄⟩ := h₄
  have dropped : id ∉ [id].erase id := by simp
  rw [Client.closed_of_dead ⟨hid, dropped, List.not_mem_nil⟩] at serves₄ same₄
  refine serves₄.ends_close.bind (fun _ v₅ h₅ => ?_) fun _ _ no => no
  obtain ⟨serves₅, flushed, same₅⟩ := h₅
  obtain ⟨handles, serves₅⟩ : ∃ handles, v₅.Serves total time ⟨[], live.erase s, [], handles⟩ :=
    ⟨_, serves₅⟩
  refine (alike_freeCount serves₅ flushed).bind (fun after v₆ h₆ => ?_) fun _ _ no => no
  obtain ⟨alike, counted₅⟩ := h₆
  have kept : ∀ s' ∈ live.erase s, Matches v v₅ s' := by
    intro s' hs'
    have hs := List.mem_of_mem_erase hs'
    exact (((same₁ s' hs).trans (same₂ s' hs)).trans (same₃ s' hs)).trans
      ((same₄ s' hs hs').trans (same₅ s' hs'))
  have more := h.spare_add_of_erase serves₅ hs fun s' hs' => (kept s' hs').mapped
  replace counted : before = v.spare total := counted
  replace counted₅ : after = v₅.spare total := counted₅
  rw [if_neg (by omega)]
  refine ends_pure ⟨by omega, v₅, handles, serves₅, flushed, alike, kept, ?_⟩
  show v₅.spare total = v.spare total + (after - before)
  omega

end Tool

end SectorVolume
