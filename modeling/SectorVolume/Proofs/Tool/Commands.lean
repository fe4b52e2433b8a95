import SectorVolume.Proofs.Tool.Bytes
import SectorVolume.Proofs.Tool.Inspection
import SectorVolume.Proofs.Tool.Storing

/-!
# What commands do to an image

Each command finds the volume as the one before it left it. Copying in and removing leave an image
in which the inodes that they are not about have the same bytes; the other commands leave the image
alone. None of them fails but for a reason that its user can see: a path that cannot be read or
written, a cache that cannot be had, a volume that is full.
-/

namespace SectorVolume

open SectorVolume.Action

namespace Tool

open Volume (Image Loaded Matches freeIn)

variable {files : Files} {image : String} {content : Content} {volume : Volume} {desk : Desk}
  {total : UInt32} {time : Int64} {live : List SectorId} {held : List (SectorId × Bytes)}
  {s : SectorId} {bytes : Bytes}

/-- What `info` shows. -/
def overview (sb : Superblock) (free : Nat) : String :=
  String.join <| [
    s!"total sectors: {sb.totalSectors}",
    s!"free map: sectors [{sb.bitmapStart}, {sb.bitmapStart.toNat + sb.bitmapSectors.toNat})",
    "formatted at: " ++ momentText sb.formattedAt.toInt,
    s!"free sectors: {free}"].map (· ++ "\n")

section

variable [Promise]

/-- A new image has no inodes. -/
theorem ends_format (works : Promise.works) (sectors : Promise.sectors = total.toNat) (cache : Nat) :
    Ends (format image cache total time) desk
      (fun _ desk' => ∃ content, desk'.files.read image = .ok content ∧
        Image total time [] [] content ∧ desk.files.Spares image desk'.files ∧
        desk'.output =
          desk.output ++ s!"formatted {image}: {total} sector(s), {freeIn total content} free" ++ "\n")
      fun _ _ => ¬ desk.files.Writable image ∨ ¬ Cache.Fits cache ∨
        total.toNat ≤ 1 + bitmapSectors total.toNat := by
  refine ends_saveFile.bind (fun _ desk₁ saved₁ => ?_) ?_
  swap
  · rintro _ _ ⟨rfl, cause, no, -⟩
    exact .inl fun writable => writable.write_ne cause no
  have e₁ := Files.read_of_write saved₁.files
  have working : (Disk.ofFile (Content.zeros (total.toNat * sectorSize))).Working total.toNat :=
    Disk.working_ofFile (Nat.le_of_eq (Nat.mul_div_cancel _ (by decide)).symm)
  have setting := Volume.serves_format works sectors working {} cache time
  refine (ends_adopt e₁).bind (fun v desk₂ h₂ => ?_) ?_
  swap
  · rintro _ _ ⟨aborted, made, -⟩
    rw [made] at setting
    exact .inr setting
  obtain ⟨made, saved₂⟩ := h₂
  rw [made] at setting
  have e₂ := Files.read_of_write saved₂.files
  refine (ends_onVolume setting.ends_freeCount e₂).bind (fun r desk₃ h₃ => ?_)
    fun _ _ ⟨_, _, no, _⟩ => no.elim
  obtain ⟨⟨serves, counted, -⟩, saved₃⟩ := h₃
  refine (ends_printLine _).bind (fun _ desk₄ h₄ => ?_) fun _ _ no => no
  have e₄ : desk₄.files.read image = .ok r.2.space.storage.disk.content := by
    rw [h₄.1]
    exact Files.read_of_write saved₃.files
  refine (ends_onVolume serves.ends_close e₄).bind (fun r' desk₅ h₅ => ends_pure ?_)
    fun _ _ ⟨_, _, no, _⟩ => no.elim
  obtain ⟨⟨closed, flushed, -⟩, saved₅⟩ := h₅
  refine ⟨_, Files.read_of_write saved₅.files, closed.image flushed nofun, ?_, ?_⟩
  · have spares := Files.spares_of_write saved₅.files
    rw [h₄.1] at spares
    exact (((Files.spares_of_write saved₁.files).trans (Files.spares_of_write saved₂.files)).trans
      (Files.spares_of_write saved₃.files)).trans spares
  have free : r.1 = freeIn total r'.2.space.storage.disk.content := by
    have before := setting.spare_add
    have after := closed.spare_add
    have none : ∀ v : Volume, (v.holdings .empty).length = 0 := fun _ => rfl
    rw [none, Nat.add_zero] at before after
    rw [counted, Volume.freeIn_of_flushed flushed]
    exact before.trans after.symm
  rw [saved₅.output, h₄.2, saved₃.output, saved₂.output, saved₁.output, ← free]

/-- An image is opened with every cache that there can be. -/
theorem ends_openImage_of_image (h : Image total time live held content)
    (e : desk.files.read image = .ok content) (cache : Nat) :
    Ends (openImage image cache) desk
      (fun v desk' => v.Loaded total time live held content ∧ desk'.Keeps desk.files ∧
        desk.files.Spares image desk'.files ∧ desk'.output = desk.output)
      fun stop desk' => ¬ Cache.Fits cache ∧ stop = .breakdown ∧ desk'.Keeps desk.files := by
  have opening := h.open_cases {} cache
  refine ((ends_openImage e).and (keeps_openImage e)).mono ?_ ?_
  · rintro v desk' ⟨⟨opened, saved⟩, -, kept⟩
    rw [opened] at opening
    exact ⟨opening, kept, Files.spares_of_write saved.files, saved.output⟩
  · rintro _ desk' ⟨⟨aborted, opened, rfl, -⟩, kept⟩
    rw [opened] at opening
    obtain ⟨unfit, violation, cause⟩ := opening
    exact ⟨unfit, by rw [cause]; rfl, kept⟩

/-- Copying out writes the bytes of the inode. -/
theorem ends_get (h : volume.Loaded total time live held content)
    (e : files.read image = .ok content) (kept : desk.Keeps files) (hs : (s, bytes) ∈ held)
    {out : String} (writable : files.Writable out) :
    Ends (get image volume s out) desk
      (fun _ desk' => desk'.output = desk.output ++ s!"{bytes.size} byte(s) -> {out}" ++ "\n" ∧
        desk'.files.bytesAt out = .ok (bytes.size, bytes))
      fun _ _ => False := by
  obtain ⟨c', -, e'⟩ := kept.read image content e
  obtain ⟨there, stores⟩ := h.held _ hs
  refine ((ends_onVolume (ends_retrieve h.serves there) e').and
    (keeps_onVolume (mirrors_retrieve s) h.mirrors e kept)).bind (fun r desk₁ h₁ => ?_) ?_
  · obtain ⟨⟨all, saved⟩, -, kept₁⟩ := h₁
    have all : r.1 = bytes := all.trans stores.bytes_eq
    refine ends_saveFile.bind (fun _ desk₂ saved₂ => ?_) ?_
    · refine (ends_printLine _).mono (fun _ desk₃ h₃ => ?_) fun _ _ no => no
      rw [h₃.1, h₃.2, saved₂.output, saved.output, all]
      refine ⟨rfl, ?_⟩
      have written := Files.read_of_write saved₂.files
      unfold Files.bytesAt
      rw [written, all]
      show Except.ok ((Content.ofBytes bytes).length, (Content.ofBytes bytes).toBytes) = _
      rw [Content.length_ofBytes, Content.toBytes_ofBytes]
    · rintro _ _ ⟨-, cause, no, -⟩
      exact (kept₁.agree.writable.2 writable).write_ne cause no
  · rintro _ _ ⟨⟨_, _, no, -⟩, -⟩
    exact no

/-- The number of free sectors is that of the image. -/
theorem ends_info (h : volume.Loaded total time live held content)
    (e : files.read image = .ok content) (kept : desk.Keeps files) :
    Ends (info image volume) desk
      (fun _ desk' => desk'.output =
        desk.output ++ overview (.ofTotal total time) (freeIn total content))
      fun _ _ => False := by
  obtain ⟨c', -, e'⟩ := kept.read image content e
  have small := total.toNat_lt
  have room := h.serves.room
  have sectors : (UInt32.ofNat (bitmapSectors total.toNat)).toNat = bitmapSectors total.toNat :=
    UInt32.toNat_ofNat_of_lt' (by show _ < 2 ^ 32; omega)
  unfold info
  rw [h.superblock]
  refine (ends_printLine _).bind (fun _ desk₁ h₁ => ?_) fun _ _ no => no
  extract_lets bitmapEnd rest
  have ends : bitmapEnd = 1 + bitmapSectors total.toNat := congrArg (1 + ·) sectors
  rw [if_neg (by rw [ends, wordRange32]; omega)]
  refine (ends_printLine _).bind (fun _ desk₂ h₂ => ?_) fun _ _ no => no
  refine (ends_printLine _).bind (fun _ desk₃ h₃ => ?_) fun _ _ no => no
  have e₃ : desk₃.files.read image = .ok c' := by rw [h₃.1, h₂.1, h₁.1, e']
  refine (ends_onVolume h.serves.ends_freeCount e₃).bind (fun r desk₄ h₄ => ?_)
    fun _ _ ⟨_, _, no, _⟩ => no
  obtain ⟨⟨-, counted, -⟩, saved⟩ := h₄
  refine (ends_printLine _).mono (fun _ desk₅ h₅ => ?_) fun _ _ no => no
  rw [h₅.2, saved.output, h₃.2, h₂.2, h₁.2, counted, h.free]
  simp only [overview, List.map, String.join, List.foldl, String.append_assoc, String.empty_append]
  rfl

/-- Copying in makes an inode with the bytes of the file if there is room for them, and else one with a
beginning of them, or it leaves the image alone. -/
theorem ends_put (h : volume.Loaded total time live held content)
    (e : files.read image = .ok content) (kept : desk.Keeps files) (file : String) :
    Ends (put image volume file) desk
      (fun _ desk' => ∃ s source content', desk'.output = desk.output ++ toString s ++ "\n" ∧
        desk.files.read file = .ok source ∧ desk.files.Spares image desk'.files ∧
        desk'.files.read image = .ok content' ∧
        Image total time (s :: live) ((s, source.toBytes) :: held) content' ∧
        freeIn total content' + (totalSectors (dataSectors source.toBytes.size) + 1) =
          freeIn total content)
      fun stop desk' =>
        desk'.Keeps files ∧ ((∃ cause, desk.files.read file = .error cause ∧
            stop = .report ["cannot read " ++ file, cause.message]) ∨
          stop = .report [(Fault.exhausted 1).message] ∧ freeIn total content = 0) ∨
        ∃ (s : SectorId) (written : Nat) (source content' : Content),
          desk.files.read file = .ok source ∧ written < source.toBytes.size ∧
          (source.toBytes.size ≤ maxFileSize →
            freeIn total content ≤ totalSectors (dataSectors source.toBytes.size)) ∧
          stop = .report
            [s!"volume full: wrote {written} of {source.toBytes.size} byte(s) to inode {s}"] ∧
          desk'.files.read image = .ok content' ∧ Image total time (s :: live) held content' := by
  obtain ⟨c', -, e'⟩ := kept.read image content e
  have free : volume.spare total = freeIn total content := h.free
  refine ends_get_bind ?_
  cases found : desk.files.read file with
  | error cause => exact ends_throw (.inl ⟨kept, .inl ⟨cause, rfl, rfl⟩⟩)
  | ok source =>
    refine (ends_onVolume (ends_store h.serves h.mirrors source.toBytes) e').bind
      (fun r desk₁ h₁ => ?_) ?_
    · obtain ⟨⟨s, written⟩, v'⟩ := r
      obtain ⟨⟨⟨handles, serves⟩, flushed, le, same, whole, enough⟩, saved⟩ := h₁
      have e₁ := Files.read_of_write saved.files
      have others : ∀ e ∈ held, e.1 ∈ s :: live ∧ v'.Stores e.1 e.2 := fun e he =>
        have ⟨there, stores⟩ := h.held e he
        ⟨List.mem_cons_of_mem s there, (same e.1 there).2.stores stores⟩
      rw [free] at whole enough
      dsimp only
      split
      · next part =>
        exact ends_throw (.inr ⟨s, written, source, _, rfl, part,
          fun small => Nat.not_lt.1 fun room => Nat.ne_of_lt part (enough small room), rfl, e₁,
          serves.image flushed others⟩)
      · next all =>
        obtain ⟨stores, less⟩ := whole (Nat.le_antisymm le (Nat.not_lt.1 all))
        refine (ends_printLine _).mono (fun _ desk₂ h₂ => ?_) fun _ _ no => no
        refine ⟨s, source, _, by rw [h₂.2, saved.output], rfl,
          h₂.1 ▸ Files.spares_of_write saved.files, h₂.1 ▸ e₁, serves.image flushed fun e he => ?_, ?_⟩
        · rcases List.mem_cons.1 he with rfl | he
          · exact ⟨List.mem_cons_self, stores⟩
          · exact others e he
        · rw [Volume.freeIn_of_flushed flushed]
          exact less
    · rintro _ desk₁ ⟨cause, v', ⟨rfl, mirrors, none⟩, rfl, saved⟩
      exact .inl ⟨kept.saved saved e mirrors.storage.disk, .inr ⟨rfl, free ▸ none⟩⟩

/-- Removing gives back what the bytes of the inode needed, and the sector of the inode. -/
theorem ends_rm (h : volume.Loaded total time live held content)
    (e : files.read image = .ok content) (kept : desk.Keeps files) (hs : s ∈ live) :
    Ends (rm image volume s) desk
      (fun _ desk' => ∃ freed content',
        desk'.output = desk.output ++ s!"removed inode {s}, released {freed} sector(s)" ++ "\n" ∧
        desk.files.Spares image desk'.files ∧ desk'.files.read image = .ok content' ∧
        Image total time (live.erase s) (held.filter fun e => e.1 ≠ s) content' ∧
        freeIn total content' = freeIn total content + freed ∧
        ∀ bytes, (s, bytes) ∈ held → freed = totalSectors (dataSectors bytes.size) + 1)
      fun _ _ => False := by
  obtain ⟨c', -, e'⟩ := kept.read image content e
  refine (ends_onVolume (ends_discard h.serves hs) e').bind (fun r desk₁ h₁ => ?_)
    fun _ _ ⟨_, _, no, _⟩ => no
  obtain ⟨freed, v'⟩ := r
  obtain ⟨⟨rfl, v₁, handles, serves, flushed, alike, same, more⟩, saved⟩ := h₁
  refine (ends_printLine _).mono (fun _ desk₂ h₂ => ?_) fun _ _ no => no
  have left : Image total time (live.erase s) (held.filter fun e => e.1 ≠ s)
      v₁.space.storage.disk.content := by
    refine serves.image flushed fun e he => ?_
    obtain ⟨he, other⟩ := List.mem_filter.1 he
    obtain ⟨there, stores⟩ := h.held e he
    have there := (List.mem_erase_of_ne (of_decide_eq_true other)).2 there
    exact ⟨there, (same e.1 there).stores stores⟩
  refine ⟨_, _, by rw [h₂.2, saved.output], h₂.1 ▸ Files.spares_of_write saved.files,
    h₂.1 ▸ Files.read_of_write saved.files, left.congr alike, ?_, fun bytes hs => ?_⟩
  · rw [Volume.freeIn_alike alike, Volume.freeIn_of_flushed flushed, more, h.free]
  · rw [(h.held _ hs).2.snug]

end

end Tool

end SectorVolume
