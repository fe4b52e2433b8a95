import SectorVolume.Proofs.Tool.Working
import SectorVolume.Proofs.Volume.Inspection

/-!
# Commands that only look

`get`, `stat` and `info` leave the image as it is, whatever is in it and however they end. All that
they write is the record of the inode that they close, and that is the record that stands there.
-/

namespace SectorVolume

open SectorVolume.Action

namespace Tool

variable {files : Files} {image : String} {c : Content} {volume : Volume} {desk : Desk} {α : Type}

/-- The command is not about to change the image. -/
def Command.Looks : Command → Prop
  | .get .. | .stat _ | .info => True
  | .format _ | .put _ | .rm _ => False

theorem mirrors_retrieve (sector : SectorId) : Preserves (Volume.Mirrors c) (retrieve sector) := by
  intro v h
  refine (Volume.mirrors_openInode h sector).bind (fun id v₁ h₁ => ?_) fun _ _ h => h
  refine (Volume.sees_getNode id _ h₁).bind (fun n v₂ h₂ => ?_) fun _ _ h => h.toMirrors
  refine (Volume.sees_readAt id 0 n.length _ h₂).bind (fun _ v₃ h₃ => ?_) fun _ _ h => h.toMirrors
  exact (Volume.sees_closeInode h₃).bind (fun _ _ h => ends_pure h.toMirrors) fun _ _ h => h.toMirrors

theorem mirrors_inspect (sector : SectorId) : Preserves (Volume.Mirrors c) (inspect sector) := by
  intro v h
  refine (Volume.mirrors_openInode h sector).bind (fun id v₁ h₁ => ?_) fun _ _ h => h
  refine (Volume.sees_getNode id _ h₁).bind (fun n v₂ h₂ => ?_) fun _ _ h => h.toMirrors
  refine (Volume.sees_mappedSectors id _ h₂).bind (fun _ v₃ h₃ => ?_) fun _ _ h => h.toMirrors
  exact (Volume.sees_closeInode h₃).bind (fun _ _ h => ends_pure h.toMirrors) fun _ _ h => h.toMirrors

/-! ## Parts of a command -/

/-- The files are as they were at first. -/
def Desk.Keeps (files : Files) (desk : Desk) : Prop := files.Keeps desk.files

theorem keeps_printLine (line : String) : Preserves (Desk.Keeps files) (printLine line) :=
  preserves_modify fun _ h => h

/-- The image was replaced by one with the same bytes. -/
theorem Desk.Keeps.saved {content : Content} {desk' : Desk} (h : desk.Keeps files)
    (saved : desk.Saved image content desk') (e : files.read image = .ok c) (alike : c.Alike content) :
    desk'.Keeps files := by
  obtain ⟨c', alike', e'⟩ := h.read image c e
  exact h.trans (Files.keeps_of_write saved.files e' (alike'.symm.trans alike))

theorem keeps_onVolume {x : Action Volume α} (hx : Preserves (Volume.Mirrors c) x)
    (h : volume.Mirrors c) (e : files.read image = .ok c) (kept : desk.Keeps files) :
    Ends (onVolume image volume x) desk
      (fun r desk' => r.2.Mirrors c ∧ desk'.Keeps files) fun _ desk' => desk'.Keeps files := by
  obtain ⟨c', -, e'⟩ := kept.read image c e
  refine (ends_onVolume (hx volume h) e').mono ?_ ?_
  · rintro r desk' ⟨shows, saved⟩
    exact ⟨shows, kept.saved saved e shows.storage.disk⟩
  · rintro _ desk' ⟨_, volume', shows, -, saved⟩
    exact kept.saved saved e shows.storage.disk

theorem keeps_openImage {cache : Nat} (e : desk.files.read image = .ok c) :
    Ends (openImage image cache) desk
      (fun volume desk' => volume.Mirrors c ∧ desk'.Keeps desk.files)
      fun _ desk' => desk'.Keeps desk.files := by
  have kept : desk.Keeps desk.files := .refl _
  have opening := Volume.mirrors_open (Disk.ofFile c) {} cache
  refine (ends_openImage e).mono ?_ ?_
  · rintro volume desk' ⟨opened, saved⟩
    rw [opened] at opening
    exact ⟨opening, kept.saved saved e opening.storage.disk⟩
  · rintro _ desk' ⟨aborted, opened, -, saved⟩
    rw [opened] at opening
    exact kept.saved saved e opening

/-! ## The commands -/

theorem keeps_stat (sector : SectorId) (h : volume.Mirrors c) (e : files.read image = .ok c)
    (kept : desk.Keeps files) :
    Ends (stat image volume sector) desk (fun _ desk' => desk'.Keeps files)
      fun _ desk' => desk'.Keeps files := by
  have printed : ∀ {k : Unit → Work Unit}, Preserves (Desk.Keeps files) (k ()) → ∀ line,
      Preserves (Desk.Keeps files) (printLine line >>= k) := fun hk line =>
    (keeps_printLine line).bind fun _ => hk
  refine (keeps_onVolume (mirrors_inspect sector) h e kept).bind (fun r desk₁ h₁ => ?_) fun _ _ h => h
  exact printed (printed (printed (printed (printed (printed (keeps_printLine _) _) _) _) _) _) _ _ h₁.2

theorem keeps_info (h : volume.Mirrors c) (e : files.read image = .ok c) (kept : desk.Keeps files) :
    Ends (info image volume) desk (fun _ desk' => desk'.Keeps files)
      fun _ desk' => desk'.Keeps files := by
  unfold info
  cases volume.superblock with
  | none => exact ends_throw kept
  | some sb =>
    refine (keeps_printLine _ _ kept).bind (fun _ desk₁ h₁ => ?_) fun _ _ h => h
    extract_lets bitmapEnd rest
    have counted : Ends (rest ⟨⟩) desk₁ (fun _ desk' => desk'.Keeps files)
        fun _ desk' => desk'.Keeps files := by
      refine (keeps_printLine _ _ h₁).bind (fun _ desk₂ h₂ => ?_) fun _ _ h => h
      refine (keeps_printLine _ _ h₂).bind (fun _ desk₃ h₃ => ?_) fun _ _ h => h
      refine (keeps_onVolume Volume.mirrors_freeCount h e h₃).bind (fun r desk₄ h₄ => ?_)
        fun _ _ h => h
      exact keeps_printLine _ _ h₄.2
    split
    · exact ends_throw h₁
    · exact counted

/-- Another file is written. -/
theorem keeps_get (sector : SectorId) {out : String} (h : volume.Mirrors c)
    (e : files.read image = .ok c) (apart : files.Apart out image) (kept : desk.Keeps files) :
    Ends (get image volume sector out) desk
      (fun _ desk' => ∃ c', c.Alike c' ∧ desk'.files.read image = .ok c')
      fun _ desk' => ∃ c', c.Alike c' ∧ desk'.files.read image = .ok c' := by
  refine (keeps_onVolume (mirrors_retrieve sector) h e kept).bind (fun r desk₁ h₁ => ?_)
    fun _ _ h => h.read image c e
  obtain ⟨c', alike, e'⟩ := h₁.2.read image c e
  refine ends_saveFile.bind (fun _ desk₂ saved => ?_) ?_
  · have e₂ := Files.read_of_write_apart saved.files (h₁.2.agree.apart.2 apart) e'
    refine (ends_printLine _).mono (fun _ desk₃ h₃ => ⟨c', alike, ?_⟩) fun _ _ h => h
    rw [h₃.1]
    exact e₂
  · rintro _ _ ⟨rfl, -⟩
    exact ⟨c', alike, e'⟩

/-- However such a command ends, the image has the same bytes then. -/
theorem keeps_perform {request : Invocation} (looks : request.command.Looks)
    (apart : ∀ inode out, request.command = .get inode out → desk.files.Apart out request.image)
    (time : Int64) (e : desk.files.read request.image = .ok c) :
    Ends (perform request time) desk
      (fun _ desk' => ∃ c', c.Alike c' ∧ desk'.files.read request.image = .ok c')
      fun _ desk' => ∃ c', c.Alike c' ∧ desk'.files.read request.image = .ok c' := by
  obtain ⟨image, cache, command⟩ := request
  have rest : ∀ desk' : Desk, desk'.Keeps desk.files →
      ∃ c', c.Alike c' ∧ desk'.files.read image = .ok c' := fun _ kept => kept.read image c e
  cases command with
  | format sectors => exact looks.elim
  | put file => exact looks.elim
  | rm inode => exact looks.elim
  | get inode out =>
    refine (keeps_openImage e).bind (fun volume desk₁ h₁ => ?_) fun _ desk' => rest desk'
    exact keeps_get inode h₁.1 e (apart inode out rfl) h₁.2
  | stat inode =>
    refine (keeps_openImage e).bind (fun volume desk₁ h₁ => ?_) fun _ desk' => rest desk'
    exact (keeps_stat inode h₁.1 e h₁.2).mono (fun _ => rest) fun _ => rest
  | info =>
    refine (keeps_openImage e).bind (fun volume desk₁ h₁ => ?_) fun _ desk' => rest desk'
    exact (keeps_info h₁.1 e h₁.2).mono (fun _ => rest) fun _ => rest

/-- Nothing happens if there is no image that can be read. -/
theorem unread_perform {request : Invocation} (looks : request.command.Looks) (time : Int64)
    {cause : PathError} (e : desk.files.read request.image = .error cause) :
    Ends (perform request time) desk (fun _ _ => False) fun _ desk' => desk' = desk := by
  obtain ⟨image, cache, command⟩ := request
  cases command with
  | format sectors => exact looks.elim
  | put file => exact looks.elim
  | rm inode => exact looks.elim
  | get inode out => exact (ends_openImage_of_error e).bind (fun _ _ no => no.elim) fun _ _ h => h
  | stat inode => exact (ends_openImage_of_error e).bind (fun _ _ no => no.elim) fun _ _ h => h
  | info => exact (ends_openImage_of_error e).bind (fun _ _ no => no.elim) fun _ _ h => h

/-- The files after a run have what the command leaves them, however it ends. -/
theorem run_of_ends {P : Files → Prop} {args : List String} {request : Invocation}
    (reads : readArguments args = .run request) {time : Int64}
    (h : Ends (perform request time) ⟨files, ""⟩ (fun _ desk => P desk.files)
      fun _ desk => P desk.files) : P (run args time files).2 := by
  unfold run
  rw [reads]
  simp only
  cases e : perform request time ⟨files, ""⟩ with
  | ok u desk => exact h.ok e
  | error stop desk =>
    have left := h.error e
    cases stop <;> exact left

/-- `get`, `stat` and `info` change no byte of the image, neither its length, whatever stands in it,
and whether they succeed, fail or break down. All that `get` needs for that is to write its output
elsewhere. -/
theorem looking_leaves_image {args : List String} {request : Invocation}
    (reads : readArguments args = .run request) (looks : request.command.Looks)
    (apart : ∀ inode out, request.command = .get inode out → files.Apart out request.image)
    (time : Int64) :
    (run args time files).2.bytesAt request.image = files.bytesAt request.image := by
  refine run_of_ends (P := fun files' => files'.bytesAt request.image = files.bytesAt request.image)
    reads ?_
  cases e : files.read request.image with
  | error cause =>
    have unread : Ends (perform request time) ⟨files, ""⟩ _ _ := unread_perform looks time e
    exact unread.mono (fun _ _ no => no.elim) fun _ _ same => same ▸ rfl
  | ok c =>
    have kept : Ends (perform request time) ⟨files, ""⟩ _ _ := keeps_perform looks apart time e
    refine kept.mono ?_ ?_
    · rintro _ desk ⟨c', alike, e'⟩
      exact Files.bytesAt_of_alike e e' alike
    · rintro _ desk ⟨c', alike, e'⟩
      exact Files.bytesAt_of_alike e e' alike

/-- An image that ends within its second sector, with a superblock that speaks of a bitmap far
behind the end. -/
def damagedImage : Files :=
  ⟨[(["v"], .file ((Content.zeros 700).put 0 ((Superblock.make 9 7 3 0).store Sector.zero)))]⟩

theorem looking_leaves_image_of_damaged :
    readArguments ["-i", "v", "-c", "1", "get", "--inode", "0", "-o", "o"] = .run ⟨"v", 1, .get 0 "o"⟩ ∧
      (run ["-i", "v", "-c", "1", "get", "--inode", "0", "-o", "o"] 0 damagedImage).2.bytesAt "v" =
        damagedImage.bytesAt "v" := by
  have reads : readArguments ["-i", "v", "-c", "1", "get", "--inode", "0", "-o", "o"] =
      .run ⟨"v", 1, .get 0 "o"⟩ := by decide
  refine ⟨reads, looking_leaves_image reads trivial ?_ 0⟩
  rintro inode out ⟨⟩
  have out : Files.Plain "o" := Files.plain_of_single (by decide) (by decide) (by simp) (by simp)
  have image : Files.Plain "v" := Files.plain_of_single (by decide) (by decide) (by simp) (by simp)
  exact out.apart image (by decide) _

end Tool

end SectorVolume
