import SectorVolume.Proofs.Ends
import SectorVolume.Proofs.Tool.Files
import SectorVolume.Tool.Run

/-!
# The parts of a command

Every part of a command that works on the volume keeps what became of the image, also when the work
fails. What is in the cache by then and not on the disk is lost.
-/

namespace SectorVolume

open SectorVolume.Action

namespace Tool

variable {desk desk' : Desk} {image path attempted : String} {content : Content} {volume : Volume}
  {cache : Nat} {α : Type}

/-- A file got a new content, and nothing was printed. -/
structure Desk.Saved (path : String) (content : Content) (desk desk' : Desk) : Prop where
  files : desk.files.write path content = .ok desk'.files
  output : desk'.output = desk.output

theorem ends_printLine (line : String) {f : Stop → Desk → Prop} :
    Ends (printLine line) desk
      (fun _ desk' => desk'.files = desk.files ∧ desk'.output = desk.output ++ line ++ "\n") f :=
  ends_modify ⟨rfl, rfl⟩

/-- The file is replaced, or the surrounding system says why not. -/
theorem ends_saveFile :
    Ends (saveFile attempted path content) desk (fun _ desk' => desk.Saved path content desk')
      fun stop desk' => desk' = desk ∧
        ∃ cause, desk.files.write path content = .error cause ∧
          stop = .report [attempted, cause.message] := by
  unfold saveFile
  refine ends_get_bind ?_
  cases e : desk.files.write path content with
  | error cause => exact ends_throw ⟨rfl, cause, rfl, rfl⟩
  | ok files => exact ends_modify ⟨e, rfl⟩

/-- The image of a volume at work is there. -/
theorem ends_saveImage {disk : Disk} (e : desk.files.read image = .ok content) :
    Ends (saveImage image disk) desk (fun _ desk' => desk.Saved image disk.content desk')
      fun _ _ => False := by
  refine ends_saveFile.mono (fun _ _ h => h) ?_
  rintro _ _ ⟨rfl, cause, no, -⟩
  exact (Files.writable_of_read e).write_ne cause no

theorem ends_onVolume {x : Action Volume α} {d : α → Volume → Prop} {f : Failure → Volume → Prop}
    (hx : Ends x volume d f) (e : desk.files.read image = .ok content) :
    Ends (onVolume image volume x) desk
      (fun r desk' => d r.1 r.2 ∧ desk.Saved image r.2.space.storage.disk.content desk')
      fun stop desk' => ∃ cause volume', f cause volume' ∧ stop = stopOf [] cause ∧
        desk.Saved image volume'.space.storage.disk.content desk' := by
  unfold onVolume
  cases run : x volume with
  | ok a volume' =>
    exact (ends_saveImage e).bind (fun _ _ saved => ends_pure ⟨hx.ok run, saved⟩) fun _ _ no => no.elim
  | error cause volume' =>
    exact (ends_saveImage e).bind
      (fun _ _ saved => ends_throw ⟨cause, volume', hx.error run, rfl, saved⟩) fun _ _ no => no.elim

/-- An image that cannot be read is left as it is. -/
theorem ends_openImage_of_error {cause : PathError} (e : desk.files.read image = .error cause) :
    Ends (openImage image cache) desk (fun _ _ => False) fun _ desk' => desk' = desk := by
  unfold openImage
  refine ends_get_bind ?_
  rw [e]
  exact ends_throw rfl

/-- A volume that was just set up or opened is taken in with what became of the image, also when
that failed. -/
theorem ends_adopt {outcome : Except Volume.Aborted Volume} {words : List String}
    (e : desk.files.read image = .ok content) :
    Ends (adopt image words outcome) desk
      (fun volume desk' => outcome = .ok volume ∧
        desk.Saved image volume.space.storage.disk.content desk')
      fun stop desk' => ∃ aborted, outcome = .error aborted ∧ stop = stopOf words aborted.cause ∧
        desk.Saved image aborted.disk.content desk' := by
  cases outcome with
  | ok volume =>
    exact (ends_saveImage e).bind (fun _ _ saved => ends_pure ⟨rfl, saved⟩) fun _ _ no => no.elim
  | error aborted =>
    exact (ends_saveImage e).bind (fun _ _ saved => ends_throw ⟨aborted, rfl, rfl, saved⟩)
      fun _ _ no => no.elim

theorem ends_openImage (e : desk.files.read image = .ok content) :
    Ends (openImage image cache) desk
      (fun volume desk' => Volume.open (Disk.ofFile content) {} cache = .ok volume ∧
        desk.Saved image volume.space.storage.disk.content desk')
      fun stop desk' => ∃ aborted, Volume.open (Disk.ofFile content) {} cache = .error aborted ∧
        stop = stopOf [image ++ " is not a sector-fs volume"] aborted.cause ∧
        desk.Saved image aborted.disk.content desk' := by
  unfold openImage
  refine ends_get_bind ?_
  rw [e]
  exact ends_adopt e

end Tool

end SectorVolume
