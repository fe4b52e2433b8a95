import SectorVolume.Cache.Storage
import SectorVolume.Proofs.Blind

/-!
# What storage hides

The layers above work on storage through a few operations. If these cannot tell two storages apart,
nothing above can. The log is hidden in this way: whatever was logged before, and whichever levels
are kept, an operation ends in the same way and makes the same transfers.
-/

namespace SectorVolume

open SectorVolume.Action

/-- The reading of a sector cannot tell alike storages apart, however it ends. -/
structure Comparison.Readable (c : Comparison Storage) : Prop where
  readSector : ∀ sector, Blind c (Storage.readSector sector)
  read : ∀ sector offset len, Blind c (Storage.read sector offset len)

/-- No operation can tell alike storages apart, but for the number of sectors that had to be written
back. -/
structure Comparison.Hidden (c : Comparison Storage) : Prop extends c.Readable where
  note : ∀ e e', Couples c (· = ·) (Storage.note e) (Storage.note e')
  write : ∀ sector offset bytes, Blind c (Storage.write sector offset bytes)
  modifySector : ∀ {α : Type} sector (f : Sector → Except Violation (α × Sector)),
    Blind c (Storage.modifySector sector f)
  replaceSector : ∀ sector bytes, Blind c (Storage.replaceSector sector bytes)
  readView : ∀ {α : Type} (view : View α) sector offset, Blind c (Storage.readView view sector offset)
  flushAll : Couples c (fun _ _ => True) Storage.flushAll Storage.flushAll
  flushSector : ∀ sector, Couples c (fun _ _ => True) (Storage.flushSector sector)
    (Storage.flushSector sector)

theorem Comparison.Hidden.blind_note {c : Comparison Storage} (h : c.Hidden) (e : Event) :
    Blind c (Storage.note e) := h.note e e

theorem Comparison.Hidden.writeZeros {c : Comparison Storage} (h : c.Hidden) (sector : SectorId) :
    Blind c (Storage.writeZeros sector) := h.write sector 0 _

/-- An event never changes what is kept. -/
theorem Log.threshold_add (log : Log) (e : Event) : (log.add e).threshold = log.threshold := by
  unfold Log.add
  split <;> rfl

namespace Storage

variable {α : Type} {i : Nat} {sector : SectorId}

/-! ## The log -/

/-- Two storages are alike if they have the same disk and the same cache. Each has a log with its own
threshold. -/
def unlogged (threshold threshold' : Option Level) : Comparison Storage where
  fit _ := True
  alike st st' := (st.disk = st'.disk ∧ st.cache = st'.cache) ∧
    st.log.threshold = threshold ∧ st'.log.threshold = threshold'
  count _ := 0

variable {threshold threshold' : Option Level}

/-- An action that can be run with any log does the same with all of them. -/
theorem couples_unlogged {x y : Action Storage α}
    (h : ∀ disk cache log log', log.threshold = threshold → log'.threshold = threshold' →
      Agree (unlogged threshold threshold').alike (· = ·) (x ⟨disk, cache, log⟩)
        (y ⟨disk, cache, log'⟩)) : Couples (unlogged threshold threshold') (· = ·) x y := by
  have keeps : ∀ z : Action Storage α, Keeps (unlogged threshold threshold') z := fun z n st hn => by
    unfold Ends
    cases z st <;> exact ⟨trivial, hn.2⟩
  refine ⟨keeps x, keeps y, ?_⟩
  rintro ⟨disk, cache, log⟩ ⟨_, _, log'⟩ - - ⟨⟨rfl, rfl⟩, e, e'⟩ - -
  exact h disk cache log log' e e'

/-- Storages that differ in their logs let an action end in the same way. -/
theorem agree_of_unlogged {x : Action Storage α} (h : Blind (unlogged threshold threshold') x)
    {st st' : Storage} (alike : (unlogged threshold threshold').alike st st') :
    Agree (unlogged threshold threshold').alike (· = ·) (x st) (x st') :=
  h.agree st st' trivial trivial alike rfl rfl

/-- Whatever is logged, the threshold stays. -/
theorem unlogged_note (e e' : Event) :
    Couples (unlogged threshold threshold') (· = ·) (note e) (note e') :=
  couples_unlogged fun _ _ log log' h h' =>
    .ok rfl ⟨⟨rfl, rfl⟩, (log.threshold_add e).trans h, (log'.threshold_add e').trans h'⟩

theorem unlogged_onCache (f : Cache → Cache) : Blind (unlogged threshold threshold') (onCache f) :=
  couples_unlogged fun _ _ _ _ h h' => .ok rfl ⟨⟨rfl, rfl⟩, h, h'⟩

theorem unlogged_select : Blind (unlogged threshold threshold') select :=
  couples_unlogged fun _ _ _ _ h h' => .ok rfl ⟨⟨rfl, rfl⟩, h, h'⟩

theorem unlogged_readSlot (i : Nat) : Blind (unlogged threshold threshold') (readSlot i) :=
  couples_unlogged fun _ _ _ _ h h' => .ok rfl ⟨⟨rfl, rfl⟩, h, h'⟩

theorem unlogged_onDisk (x : Action Disk α) : Blind (unlogged threshold threshold') (onDisk x) :=
  couples_unlogged fun disk _ _ _ h h' => by
    unfold onDisk
    simp only
    cases x disk with
    | ok => exact .ok rfl ⟨⟨rfl, rfl⟩, h, h'⟩
    | error => exact .error ⟨⟨rfl, rfl⟩, h, h'⟩

theorem unlogged_get_bind {k : Storage → Action Storage α}
    (e : ∀ disk cache log log', k ⟨disk, cache, log⟩ = k ⟨disk, cache, log'⟩)
    (h : ∀ st, Blind (unlogged threshold threshold') (k st)) :
    Blind (unlogged threshold threshold') (get >>= k) := by
  refine blind_get_bind ?_ h
  rintro ⟨disk, cache, log⟩ ⟨_, _, log'⟩ ⟨⟨rfl, rfl⟩, -⟩
  exact e disk cache log log'

theorem unlogged_writeBack (i : Nat) : Blind (unlogged threshold threshold') (writeBack i) := by
  unfold writeBack
  refine unlogged_get_bind (fun _ _ _ _ => rfl) fun st => ?_
  refine blind_when (blind_throw _) ?_
  split
  · refine (unlogged_onDisk _).bind fun written => ?_
    split
    · refine (unlogged_onCache _).bind fun _ => Blind.bind (unlogged_note _ _) fun _ => ?_
      exact blind_pure _
    · exact Blind.bind (unlogged_note _ _) fun _ => blind_fail _
  · exact blind_pure _

theorem unlogged_writeBackAll (count : Nat) (is : List Nat) :
    Blind (unlogged threshold threshold') (writeBackAll count is) := by
  induction is generalizing count with
  | nil => exact blind_pure _
  | cons i is ih => exact (unlogged_writeBack i).bind fun _ => ih _

theorem unlogged_flushAll : Blind (unlogged threshold threshold') flushAll :=
  unlogged_get_bind (fun _ _ _ _ => rfl) fun _ => (unlogged_writeBackAll 0 _).bind fun _ =>
    Blind.bind (unlogged_note _ _) fun _ => blind_pure _

theorem unlogged_flushSector (sector : SectorId) :
    Blind (unlogged threshold threshold') (flushSector sector) := by
  unfold flushSector
  refine unlogged_get_bind (fun _ _ _ _ => rfl) fun st => ?_
  split
  · exact blind_pure _
  · exact unlogged_writeBack _

theorem unlogged_vacancy : Blind (unlogged threshold threshold') vacancy := by
  unfold vacancy
  refine unlogged_select.bind fun first => unlogged_get_bind (fun _ _ _ _ => rfl) fun st => ?_
  refine blind_ite (blind_pure _) (blind_when (unlogged_note _ _) ?_)
  exact (unlogged_writeBack _).bind fun _ => unlogged_select.bind fun _ => blind_pure _

theorem unlogged_firstLine (sector : SectorId) (fill : Fill) :
    Blind (unlogged threshold threshold') (firstLine sector fill) := by
  cases fill with
  | disk =>
    unfold firstLine
    refine (unlogged_onDisk _).bind fun read => ?_
    split <;> exact blind_pure _
  | blank | bytes => exact blind_pure _

theorem unlogged_claim (sector : SectorId) (fill : Fill) :
    Blind (unlogged threshold threshold') (claim sector fill) := by
  unfold claim
  refine unlogged_vacancy.bind fun i => unlogged_get_bind (fun _ _ _ _ => rfl) fun st => ?_
  extract_lets filled
  have onward : Blind (unlogged threshold threshold') (filled ⟨⟩) := by
    refine (unlogged_firstLine sector fill).bind fun line => ?_
    split
    · refine (unlogged_onCache _).bind fun _ => Blind.bind (unlogged_note _ _) fun _ => ?_
      exact blind_pure _
    · exact Blind.bind (unlogged_note _ _) fun _ => blind_fail _
  split
  · exact (unlogged_onCache _).bind fun _ => Blind.bind (unlogged_note _ _) fun _ => onward
  · exact onward

theorem unlogged_fetch (sector : SectorId) (fill : Fill) :
    Blind (unlogged threshold threshold') (fetch sector fill) := by
  unfold fetch
  refine unlogged_get_bind (fun _ _ _ _ => rfl) fun st => ?_
  split
  · exact blind_pure _
  · exact unlogged_claim sector fill

theorem blind_checkRange {c : Comparison Storage} (offset len : Nat) (outside : Violation) :
    Blind c (checkRange offset len outside) := by
  unfold checkRange
  exact blind_when (blind_violate _) (blind_ite (blind_violate _) (blind_pure _))

theorem unlogged_write (sector : SectorId) (offset : Nat) (bytes : Bytes) :
    Blind (unlogged threshold threshold') (write sector offset bytes) := by
  have rest : ∀ i, Blind (unlogged threshold threshold') (do
      overlaySlot i offset bytes
      note (.sectorWritten sector offset bytes.size)) := fun i =>
    (unlogged_onCache _).bind fun _ => unlogged_note _ _
  unfold write
  refine (blind_checkRange _ _ _).bind fun _ => unlogged_get_bind (fun _ _ _ _ => rfl) fun st => ?_
  split
  · exact rest _
  · refine blind_ite ?_ ((unlogged_claim _ _).bind fun i => rest i)
    exact Blind.bind (unlogged_note _ _) fun _ => (unlogged_claim _ _).bind fun _ => blind_pure _

/-- Nothing depends on the log. -/
theorem hidden_unlogged : (unlogged threshold threshold').Hidden where
  readSector _ := (unlogged_fetch _ _).bind fun i => unlogged_readSlot i
  read _ _ _ := (blind_checkRange _ _ _).bind fun _ => (unlogged_fetch _ _).bind fun i =>
    (unlogged_readSlot i).bind fun _ => Blind.bind (unlogged_note _ _) fun _ => blind_pure _
  note := unlogged_note
  write := unlogged_write
  modifySector _ _ := (unlogged_fetch _ _).bind fun _ => unlogged_get_bind (fun _ _ _ _ => rfl) fun _ =>
    (blind_ofExcept _).bind fun _ => (unlogged_onCache _).bind fun _ => blind_pure _
  replaceSector _ _ := (unlogged_fetch _ _).bind fun _ => unlogged_onCache _
  readView _ _ _ := (unlogged_fetch _ _).bind fun _ => unlogged_get_bind (fun _ _ _ _ => rfl) fun _ =>
    (blind_ofExcept _).bind fun _ => (unlogged_onCache _).bind fun _ => blind_pure _
  flushAll := unlogged_flushAll.mono fun _ _ _ => trivial
  flushSector sector := (unlogged_flushSector sector).mono fun _ _ _ => trivial

end Storage

end SectorVolume
