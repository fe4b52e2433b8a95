import SectorVolume.Proofs.Volume.Formatting
import SectorVolume.Proofs.Volume.Frames

/-!
# What the log does to a volume

The log is asked once what it keeps: the free sectors of a new volume are counted for a report that
is kept, and only then. By that time the volume is on the disk, and counting reads it. So whatever
is logged, the disks get the same content, and the volumes give the same answers later, but for the
number of sectors that have to be written back, which depends on what the caches have by then. But
the counting may fail. Then there is no volume with a log that keeps the report, and with another
log there is one.
-/

namespace SectorVolume

open SectorVolume.Action

theorem Log.keeps_congr {log log' : Log} (h : log.threshold = log'.threshold) (level : Level) :
    log.keeps level = log'.keeps level := by
  unfold keeps
  rw [h]

namespace Storage

variable {st st' : Storage} {L : SectorId → Sector} {total : UInt32} {m : FreeMap} {log log' : Log}

/-! ## Setting up with two logs -/

/-- Up to the report nothing depends on the log. -/
theorem unlogged_layOut {threshold threshold' : Option Level} (total : UInt32) (time : Int64) :
    Blind (unlogged threshold threshold') (Volume.layOut total time) := by
  unfold Volume.layOut
  refine (blind_forEach (fun _ => hidden_unlogged.writeZeros _) _ _).bind fun _ => ?_
  refine Blind.bind ((unlogged_fetch _ _).bind fun _ => unlogged_onCache _) fun _ => ?_
  refine (blind_ofExcept _).bind fun map => (map.blind_format hidden_unlogged _).bind fun _ => ?_
  exact unlogged_flushAll.bind fun _ => blind_pure _

/-- The report depends on whether it is kept. -/
theorem unlogged_announce (same : log.keeps .info = log'.keeps .info) (total : UInt32)
    (m : FreeMap) : Blind (unlogged log.threshold log'.threshold) (Volume.announce total m) := by
  refine blind_get_bind (fun s t alike => ?_) fun s => ?_
  · obtain ⟨-, e, e'⟩ := alike
    rw [Log.keeps_congr e, Log.keeps_congr e', same]
  · split
    · exact (hidden_unlogged.freeFrom m 0 0 _).bind fun _ => unlogged_note _ _
    · exact blind_pure _

theorem announce_of_quiet (quiet : st.log.keeps .info = false) (total : UInt32) (m : FreeMap) :
    Volume.announce total m st = .ok () st := by
  have look : Volume.announce total m st = (if st.log.keeps .info = true then (do
      let free ← m.freeCount
      note (.volumeFormatted total (bitmapSectors total.toNat) free)) else pure ()) st := rfl
  rw [look, quiet]
  rfl

/-- The content of the storage is `L`, and all of it is on the disk. -/
structure Written (L : SectorId → Sector) (st : Storage) : Prop where
  intact : st.Intact
  clean : ∀ i, (st.cache.slot i).isDirty ≠ true
  logical : st.logical = L

theorem Written.shows (h : st.Written L) (s : SectorId) : st.disk.sector s.toNat = L s :=
  (h.intact.flushed h.clean s).trans (congrFun h.logical s)

theorem Written.confined (h : st.Written L) : st.Confined False wordRange32 st.disk.content :=
  ⟨h.intact.wellFormed, h.intact.inhabited,
    fun i l hl => ⟨l.sector.toNat_lt, fun dirty => h.clean i (Slot.isDirty_iff.2 ⟨l, hl, dirty⟩)⟩,
    False.elim, rfl, fun _ _ => rfl⟩

theorem Written.congr (h : st.Written L) (hd : st'.disk = st.disk) (hc : st'.cache = st.cache) :
    st'.Written L := by
  have same := h.intact.same_of_disk_of_cache hd hc
  exact ⟨same.good, hc ▸ h.clean, same.logical.trans h.logical⟩

/-- A disk that shows the same can be put in the place of the disk. -/
theorem Written.moved (h : st.Written L) {d : Disk} (shows : ∀ s : SectorId, d.sector s.toNat = L s) :
    ({ st with disk := d } : Storage).Written L := by
  have same : ∀ s : SectorId, d.sector s.toNat = st.disk.sector s.toNat := fun s =>
    (shows s).trans (h.shows s).symm
  obtain ⟨wellFormed, inhabited, coherent, counted, kept, -, -⟩ := h.intact
  refine ⟨⟨wellFormed, inhabited, fun i l hl mark => ?_, counted, kept, nofun, nofun⟩, h.clean, ?_⟩
  · exact (coherent i l hl mark).trans (same l.sector).symm
  · refine Eq.trans ?_ h.logical
    exact logical_congr (fun _ => rfl) (fun _ => rfl) fun s _ => same s

/-- A report that fails is one that is kept. -/
theorem ends_announce (hp : m.Stands wordRange32) (h : st.Written L) (total : UInt32) :
    Ends (Volume.announce total m) st (fun _ st' => st'.Written L) fun e st' => st'.Written L ∧
      st.log.keeps .info = true ∧ (∃ cause, e = .fault (.device cause)) ∧
        st.disk.failures < st'.disk.failures := by
  have written : ∀ {st' : Storage}, Same False wordRange32 [] st st' →
      st'.Confined False wordRange32 st.disk.content → st'.Written L := fun same confined =>
    ⟨same.good, confined.not_dirty, same.logical.trans h.logical⟩
  cases kept : st.log.keeps .info with
  | false => exact (ends_pure (a := ()) h).of_eq (announce_of_quiet kept total m)
  | true =>
    refine ((meets_announce hp h.intact total).ends.and
      (confined_announce hp total st h.confined)).mono ?_ ?_
    · exact fun _ st' h' => written h'.1 h'.2
    · rintro _ st' ⟨⟨c, rfl, ⟨cause, rfl⟩, -, failed, same⟩, confined⟩
      exact ⟨written same confined, rfl, ⟨cause, rfl⟩, failed⟩

end Storage

namespace Volume

/-! ## Answers of volumes with the same content -/

/-- The volumes give the same answers to the requests one after the other, until a transfer fails. -/
def AnswerAlike : List Request → Volume → Volume → Prop
  | [], _, _ => True
  | r :: rest, v, w =>
    (final (r.perform v)).space.storage.disk.failures = v.space.storage.disk.failures →
    (final (r.perform w)).space.storage.disk.failures = w.space.storage.disk.failures →
      Agree (AnswerAlike rest) r.Same (r.perform v) (r.perform w)

/-- Only the content of the storage can be told. -/
theorem answerAlike_of_alike (requests : List Request) {v w : Volume} (hv : v.space.Intact)
    (hw : w.space.Intact) (alike : Storage.sameContent.volume.alike v w) :
    AnswerAlike requests v w := by
  induction requests generalizing v w with
  | nil => trivial
  | cons r rest ih =>
    intro calm calm'
    have couples := couples_perform Storage.hidden_sameContent r
    have agree := couples.agree v w hv hw alike calm calm'
    have left := (couples.left.final hv).1
    have right := (couples.right.final hw).1
    generalize r.perform v = x at agree left
    generalize r.perform w = y at agree right
    cases agree with
    | ok same alike => exact .ok same (ih left right alike)
    | error alike => exact .error (ih left right alike)

/-- The volume on another disk. -/
def moved (v : Volume) (d : Disk) : Volume :=
  { v with space := { v.space with storage := { v.space.storage with disk := d } } }

/-- The volumes have the same superblock and disks with the same content. On disks that are equal
they give the same answers to whatever is asked of them. -/
structure Twins (v w : Volume) : Prop where
  superblock : v.superblock = w.superblock
  content : ∀ s : SectorId, w.space.storage.disk.sector s.toNat = v.space.storage.disk.sector s.toNat
  answers : ∀ d : Disk, (∀ s : SectorId, d.sector s.toNat = v.space.storage.disk.sector s.toNat) →
    ∀ requests, AnswerAlike requests (v.moved d) (w.moved d)

/-- With `log` there is a volume, and with `log'`, which keeps more, it was lost when a transfer
failed later, although all of it is on the disk. -/
structure Lost (log log' : Log) (v : Volume) (aborted : Aborted) : Prop where
  quiet : log.keeps .info = false
  loud : log'.keeps .info = true
  device : ∃ cause, aborted.cause = .fault (.device cause)
  later : v.space.storage.disk.failures < aborted.disk.failures
  content : ∀ s : SectorId, aborted.disk.sector s.toNat = v.space.storage.disk.sector s.toNat

/-- The new volume on a storage. -/
def onto (r : Superblock × FreeMap) (st : Storage) : Volume :=
  ⟨⟨st, .bitmap r.2⟩, some r.1, #[], []⟩

/-- What comes of a new volume that is on the disk and about to be reported. -/
def reported (total : UInt32) (r : Superblock × FreeMap) (st : Storage) : Except Aborted Volume :=
  match announce total r.2 st with
  | .ok _ st => .ok (onto r st)
  | .error cause ⟨disk, _, log⟩ => .error ⟨cause, disk, log⟩

theorem start_initialise {disk : Disk} {capacity : Nat} {cache : Cache}
    (e : Cache.create capacity = .ok cache) (log : Log) (total : UInt32) (time : Int64) :
    start disk log capacity (initialise total time) =
      match layOut total time ⟨disk, cache, log⟩ with
      | .ok r st => reported total r st
      | .error cause ⟨disk, _, log⟩ => .error ⟨cause, disk, log⟩ := by
  unfold start
  rw [e, initialise_eq]
  simp only
  cases laid : layOut total time ⟨disk, cache, log⟩ with
  | error cause st => rw [run_bind_error laid]
  | ok r st =>
    unfold reported
    simp only
    cases told : announce total r.2 st with
    | error cause st' => rw [run_bind laid (run_bind_error told)]
    | ok u st' =>
      rw [run_bind laid (run_bind told rfl)]
      rfl

/-- Written storages with the same content make the same volume. -/
theorem twins_of_written {r : Superblock × FreeMap} {s t : Storage} {L : SectorId → Sector}
    (hs : s.Written L) (ht : t.Written L) : Twins (onto r s) (onto r t) := by
  refine ⟨rfl, fun id => (ht.shows id).trans (hs.shows id).symm, fun d shows requests => ?_⟩
  have shows : ∀ id : SectorId, d.sector id.toNat = L id := fun id => (shows id).trans (hs.shows id)
  have left := hs.moved shows
  have right := ht.moved shows
  exact answerAlike_of_alike requests left.intact right.intact
    ⟨⟨left.logical.trans right.logical.symm, rfl⟩, rfl⟩

/-- A report that fails with one log and not with the other is kept by the one only. -/
theorem lost_of_error {log log' : Log} {total : UInt32} {r : Superblock × FreeMap}
    {s s' t t' : Storage} {L : SectorId → Sector} {u : Unit} {e : Failure}
    (hp : r.2.Stands wordRange32) (hs : s.Written L)
    (alike : (Storage.unlogged log.threshold log'.threshold).alike s t)
    (told : announce total r.2 s = .ok u s') (failed : announce total r.2 t = .error e t') :
    Lost log log' (onto r s') ⟨e, t'.disk, t'.log⟩ := by
  obtain ⟨⟨hd, hc⟩, threshold, threshold'⟩ := id alike
  have ht := hs.congr hd.symm hc.symm
  obtain ⟨left, kept, device, later⟩ := (Storage.ends_announce hp ht total).error failed
  have loud : log'.keeps .info = true := (Log.keeps_congr threshold' _).symm.trans kept
  have quiet : log.keeps .info = false := by
    by_contra other
    rw [Bool.not_eq_false] at other
    have agree := Storage.agree_of_unlogged
      (Storage.unlogged_announce (other.trans loud.symm) total r.2) alike
    rw [told, failed] at agree
    cases agree
  have rests := Storage.announce_of_quiet ((Log.keeps_congr threshold _).trans quiet) total r.2
  rw [told] at rests
  cases rests
  exact ⟨quiet, loud, device, hd ▸ later, fun id => (left.shows id).trans (hs.shows id).symm⟩

/-- What may come of the same thing with two logs. -/
def UpToReport (log log' : Log) : Except Aborted Volume → Except Aborted Volume → Prop
  | .ok v, .ok w => Twins v w
  | .ok v, .error aborted => Lost log log' v aborted
  | .error aborted, .ok w => Lost log' log w aborted
  | .error a, .error b => a.cause = b.cause ∧ a.disk = b.disk

theorem reported_up_to_report {log log' : Log} {total : UInt32} {r : Superblock × FreeMap}
    {s t : Storage} {L : SectorId → Sector} (hp : r.2.Stands wordRange32) (hs : s.Written L)
    (alike : (Storage.unlogged log.threshold log'.threshold).alike s t) :
    UpToReport log log' (reported total r s) (reported total r t) := by
  obtain ⟨⟨hd, hc⟩, threshold, threshold'⟩ := id alike
  have ht := hs.congr hd.symm hc.symm
  have left := Storage.ends_announce hp hs total
  have right := Storage.ends_announce hp ht total
  unfold reported
  cases told : announce total r.2 s with
  | ok u s' =>
    cases told' : announce total r.2 t with
    | ok u' t' => exact twins_of_written (left.ok told) (right.ok told')
    | error e' t' => exact lost_of_error hp hs alike told told'
  | error e s' =>
    cases told' : announce total r.2 t with
    | ok u' t' =>
      exact lost_of_error hp ht ⟨⟨hd.symm, hc.symm⟩, threshold', threshold⟩ told' told
    | error e' t' =>
      -- both reports are kept, so the counting was the same
      have kept := (Log.keeps_congr threshold _).symm.trans (left.error told).2.1
      have kept' := (Log.keeps_congr threshold' _).symm.trans (right.error told').2.1
      have agree := Storage.agree_of_unlogged
        (Storage.unlogged_announce (kept.trans kept'.symm) total r.2) alike
      rw [told, told'] at agree
      cases agree with
      | error alike => exact ⟨rfl, alike.1.1⟩

/-- Whatever the logs keep, setting up a volume fails in the same way with both, or makes volumes
that cannot be told apart on equal disks as long as no transfer fails. Only the report on the volume
makes a difference: if one log keeps it, and the disk fails while the sectors are counted for it, the
volume is lost with that log, although the other yields it. -/
theorem format_up_to_report (disk : Disk) (log log' : Log) (total : UInt32) (capacity : Nat)
    (time : Int64) : UpToReport log log' (format disk log total capacity time)
      (format disk log' total capacity time) := by
  unfold format
  simp only
  by_cases small : 1 + bitmapSectors total.toNat ≥ total.toNat
  · rw [if_pos small, if_pos small]
    exact ⟨rfl, rfl⟩
  rw [if_neg small, if_neg small]
  cases created : Cache.create capacity with
  | error violation =>
    have none : ∀ log, start disk log capacity (initialise total time) =
        .error ⟨.violation violation, disk, log⟩ := fun log => by
      unfold start
      rw [created]
    rw [none, none]
    exact ⟨rfl, rfl⟩
  | ok cache =>
    have room := reserved_le total
    have stands : (FreeMap.ofTotal total.toNat).Stands wordRange32 :=
      (FreeMap.placed_ofTotal room (Nat.le_refl _) total.toNat_lt).stands
    have intact := Storage.intact_of_create created disk log
    have laid := Storage.meets_layOut intact (Nat.le_refl _) time room
    have alike : (Storage.unlogged log.threshold log'.threshold).alike ⟨disk, cache, log⟩
      ⟨disk, cache, log'⟩ := ⟨⟨rfl, rfl⟩, rfl, rfl⟩
    have agree := Storage.agree_of_unlogged (Storage.unlogged_layOut total time) alike
    rw [start_initialise created, start_initialise created]
    generalize run : layOut total time ⟨disk, cache, log⟩ = x at agree
    generalize layOut total time ⟨disk, cache, log'⟩ = y at agree
    cases agree with
    | error alike => exact ⟨rfl, alike.1.1⟩
    | @ok r _ s t same alike =>
      cases same
      obtain ⟨rfl, ⟨L, -, becomes⟩, clean⟩ := laid.ok run
      exact reported_up_to_report stands ⟨becomes.good, clean, rfl⟩ alike

end Volume

end SectorVolume
