import SectorVolume.Proofs.Volume.Contents

/-!
# Reading and writing pieces of a file

The loops over the pieces of a range. Reading yields the bytes of the range. Writing stops early
when sectors run out or the disk fails; the bytes of the file are then the written ones up to the
number that is returned and the old ones elsewhere. So filling a range with zeros does that at least
for a beginning of it.
-/

namespace SectorVolume

open SectorVolume.Action

theorem pieces_zero (start : Nat) : pieces start 0 = [] := by
  rw [pieces, dif_pos rfl]

/-- The first piece of a range, and those after it. -/
theorem pieces_of_pos (start : Nat) {len : Nat} (some : len ≠ 0) :
    ∃ size, 0 < size ∧ size ≤ len ∧ start % 512 + size ≤ 512 ∧
      pieces start len = ⟨start, size⟩ :: pieces (start + size) (len - size) :=
  ⟨min len (512 - start % 512), by omega, by omega, by omega, by rw [pieces, dif_neg some]⟩

variable [Promise]

/-- The tree got longer at its end, and no taken sector changed that is not one of the tree. -/
structure Tree.Alters (t : Tree) (a : Stock) (t' : Tree) (b : Stock) : Prop where
  sound : t'.Sound b
  taken : ∃ ids, Stock.Took (· ∈ t.sectors) ids a b ∧ t'.sectors.Perm (t.sectors ++ ids)
  data : t.data <+: t'.data
  rest : t'.record.withoutSectors = t.record.withoutSectors

theorem Tree.Grows.alters {t t' : Tree} {a b : Stock} (h : t.Grows a t' b) : t.Alters a t' b := by
  obtain ⟨ids, took, perm⟩ := h.taken
  exact ⟨h.sound, ⟨ids, took.mono fun s _ hs => Tree.mem_sectors_blocks hs, perm⟩, h.data, h.rest⟩

theorem Tree.Alters.trans {t t' t'' : Tree} {a b c : Stock} (h : t.Alters a t' b)
    (h' : t'.Alters b t'' c) : t.Alters a t'' c := by
  obtain ⟨ids, took, perm⟩ := h.taken
  obtain ⟨ids', took', perm'⟩ := h'.taken
  refine ⟨h'.sound, ⟨ids ++ ids', took.trans took' fun s kept hs => ?_, ?_⟩, h.data.trans h'.data,
    h'.rest.trans h.rest⟩
  · exact (List.mem_append.1 (perm.mem_iff.1 hs)).resolve_right fun hs' => took.not_kept took' hs' kept
  · rw [← List.append_assoc]
    exact perm'.trans (perm.append_right ids')

/-- One data sector is overwritten. -/
theorem Tree.Sound.alters {t : Tree} {a b : Stock} (h : t.Sound a) {id : SectorId}
    (hid : id ∈ t.data) (took : Stock.Took (· = id) [] a b) : t.Alters a t b := by
  refine ⟨h.frame took fun s hs e => h.not_mem_blocks hid (e ▸ hs), ⟨[], took.mono fun s _ e => ?_,
    by rw [List.append_nil]⟩, List.prefix_refl _, rfl⟩
  rw [e]
  exact Tree.mem_sectors_data hid

/-! ## Reading -/

namespace Space

variable {sp sp' : Space} {t : Tree}

theorem meets_read (h : sp.Sound) {id : SectorId} (hs : sp.stock.Usable id) {offset len : Nat}
    (inside : offset + len ≤ 512) :
    Meets (onStorage (Storage.read id offset len)) sp
      (fun b sp' => b = (sp.stock.content id).slice offset len ∧ sp.Rests sp') sp.Fails :=
  meets_onStorage_rests h (Storage.meets_read h.storage hs.lt inside)

theorem meets_readPiece (h : sp.Sound) (ht : t.Sound sp.stock) {p : Piece}
    (inside : p.offset + p.size ≤ 512) :
    Meets (onStorage (Volume.readPiece t.record p)) sp
      (fun b sp' => b = span (byteIn sp.stock.content t.data) p.start p.size ∧ sp.Rests sp')
      sp.Fails := by
  unfold Volume.readPiece
  rw [onStorage_bind]
  refine (meets_lookup h ht p.start).bind (fun x sp₁ h₁ => ?_) fun _ _ h => h
  obtain ⟨rfl, rests⟩ := h₁
  cases e : t.data[p.start / 512]? with
  | none => exact meets_pure ⟨zeros_eq_span e inside, rests⟩
  | some id =>
    have usable := (ht.held id (Tree.mem_sectors_data (List.mem_of_getElem? e))).1
    have usable₁ : sp₁.stock.Usable id := by
      rw [rests.stock]
      exact usable
    refine (meets_read rests.sound usable₁ inside).mono (fun b sp₂ h₂ => ?_)
      fun _ _ h => rests.fails h
    refine ⟨?_, rests.rests h₂.2⟩
    rw [h₂.1, rests.content, slice_eq_span e inside]

/-- Reading the pieces of a range yields the bytes of the range. -/
theorem meets_readPieces (h : sp.Sound) (ht : t.Sound sp.stock) (bytes : Bytes)
    (start len : Nat) :
    Meets (onStorage (Volume.readPieces t.record bytes (pieces start len))) sp
      (fun b sp' => b = bytes ++ span (byteIn sp.stock.content t.data) start len ∧ sp.Rests sp')
      sp.Fails := by
  induction len using Nat.strongRecOn generalizing sp bytes start with | ind len ih
  by_cases none : len = 0
  · rw [none, pieces_zero]
    refine meets_pure ⟨?_, h.rests⟩
    rw [span_zero, Array.append_empty]
  · obtain ⟨size, pos, le, inside, e⟩ := pieces_of_pos start none
    rw [e]
    unfold Volume.readPieces
    rw [onStorage_bind]
    refine (meets_readPiece (p := ⟨start, size⟩) h ht inside).bind (fun b sp₁ h₁ => ?_)
      fun _ _ h => h
    obtain ⟨rfl, rests⟩ := h₁
    refine (ih _ (by omega) rests.sound (ht.stays rests.took).sound _ _).mono (fun b sp₂ h₂ => ?_)
      fun _ _ h => rests.fails h
    refine ⟨?_, rests.rests h₂.2⟩
    rw [h₂.1, rests.content, Array.append_assoc, span_append, Nat.add_sub_cancel' le]

/-! ## Filling with zeros -/

theorem meets_write (h : sp.Sound) {id : SectorId} (hs : sp.stock.Usable id) {offset : Nat}
    {bytes : Bytes} (inside : offset + bytes.size ≤ 512) :
    Meets (onStorage (Storage.write id offset bytes)) sp
      (fun _ sp' => sp.Rewrites sp' (Function.update sp.stock.content id
        ((sp.stock.content id).overlay offset bytes))) sp.Fails :=
  meets_onStorage_put h hs.2.1 (Storage.meets_write h.storage hs.lt inside)

/-- From `sp` to `sp'` the bytes of the tree from `start` on were overwritten by `count` zeros. -/
structure Clears (sp : Space) (t : Tree) (start count : Nat) (sp' : Space) : Prop where
  sound : sp'.Sound
  alters : t.Alters sp.stock t sp'.stock
  bytes : ∀ i, byteIn sp'.stock.content t.data i =
    if start ≤ i ∧ i < start + count then 0 else byteIn sp.stock.content t.data i

theorem Rests.clears (h : sp.Rests sp') (ht : t.Sound sp.stock) (start : Nat) :
    sp.Clears t start 0 sp' := by
  refine ⟨h.sound, (ht.stays h.took).alters, fun i => ?_⟩
  rw [h.content, if_neg (by omega)]

theorem Clears.trans {sp'' : Space} {start count count' : Nat} (h : sp.Clears t start count sp')
    (h' : sp'.Clears t (start + count) count' sp'') : sp.Clears t start (count + count') sp'' := by
  refine ⟨h'.sound, h.alters.trans h'.alters, fun i => ?_⟩
  rw [h'.bytes, h.bytes]
  by_cases first : start ≤ i ∧ i < start + count
  · rw [if_neg (by omega), if_pos first, if_pos (by omega)]
  · rw [if_neg first]
    by_cases second : start + count ≤ i ∧ i < start + count + count'
    · rw [if_pos second, if_pos (by omega)]
    · rw [if_neg second, if_neg (by omega)]

/-- One piece of the tree is filled with zeros. -/
theorem meets_zeroPiece (h : sp.Sound) (ht : t.Sound sp.stock) {id : SectorId} {p : Piece}
    (e : t.data[p.start / 512]? = some id) (inside : p.offset + p.size ≤ 512) :
    Meets (onStorage (Storage.write id p.offset (Array.replicate p.size 0))) sp
      (fun _ sp' => sp.Clears t p.start p.size sp') sp.Fails := by
  have mem := List.mem_of_getElem? e
  have usable := (ht.held id (Tree.mem_sectors_data mem)).1
  have size : (Array.replicate p.size (0 : UInt8)).size = p.size := Array.size_replicate
  refine (meets_write h usable (by rw [size]; exact inside)).mono (fun _ sp₁ h₁ => ?_)
    fun _ _ h => h
  refine ⟨h₁.sound, ht.alters mem (h₁.took_put rfl), fun i => ?_⟩
  have offset : p.offset = p.start % 512 := rfl
  rw [h₁.content, offset, byteIn_overlay ht.nodup.of_append_left e (by rw [size, ← offset]; exact inside),
    size]
  by_cases range : p.start ≤ i ∧ i < p.start + p.size
  · rw [if_pos range, if_pos range]
    simp [Array.getD_eq_getD_getElem?, show i - p.start < p.size by omega]
  · rw [if_neg range, if_neg range]

/-- The pieces of a range are filled with zeros, or those of a beginning of it. -/
theorem meets_zeroPieces (h : sp.Sound) (ht : t.Sound sp.stock) (start len : Nat) :
    Meets (onStorage (Volume.zeroPieces t.record (pieces start len))) sp
      (fun _ sp' => sp.Clears t start len sp')
      (fun c sp' => ∃ count ≤ len, sp.Clears t start count sp' ∧
        Stock.Broke sp.stock sp'.stock c) := by
  induction len using Nat.strongRecOn generalizing sp start with | ind len ih
  by_cases none : len = 0
  · rw [none, pieces_zero]
    exact meets_pure (h.rests.clears ht start)
  · obtain ⟨size, pos, le, inside, e⟩ := pieces_of_pos start none
    have fails : ∀ {sp₁ : Space} {c : Fault}, sp.Fails c sp₁ → ∃ count ≤ len,
        sp.Clears t start count sp₁ ∧ Stock.Broke sp.stock sp₁.stock c :=
      fun h => ⟨0, Nat.zero_le _, Rests.clears h.1 ht start, h.2⟩
    have rest : ∀ sp₁, sp.Clears t start size sp₁ →
        Meets (onStorage (Volume.zeroPieces t.record (pieces (start + size) (len - size)))) sp₁
          (fun _ sp' => sp.Clears t start len sp')
          (fun c sp' => ∃ count ≤ len, sp.Clears t start count sp' ∧
            Stock.Broke sp.stock sp'.stock c) := by
      intro sp₁ cleared
      obtain ⟨ids, took, -⟩ := cleared.alters.taken
      refine (ih _ (by omega) cleared.sound cleared.alters.sound _).mono (fun _ sp₂ h₂ => ?_) fun c sp₂ h₂ => ?_
      · have := cleared.trans h₂
        rwa [Nat.add_sub_cancel' le] at this
      · obtain ⟨count, le', cleared₂, broke⟩ := h₂
        exact ⟨size + count, by omega, cleared.trans cleared₂, broke.1,
          Nat.lt_of_le_of_lt took.failures broke.2⟩
    rw [e]
    unfold Volume.zeroPieces
    rw [onStorage_bind]
    refine (meets_lookup h ht start).bind (fun x sp₁ h₁ => ?_) fun c sp₁ h₁ => fails h₁
    obtain ⟨rfl, rests⟩ := h₁
    have tree := (ht.stays rests.took).sound
    have after : ∀ sp₂, sp₁.Clears t start size sp₂ → sp.Clears t start size sp₂ := by
      intro sp₂ cleared
      have := (rests.clears ht start).trans cleared
      rwa [Nat.zero_add] at this
    cases there : t.data[start / 512]? with
    | none =>
      -- beyond the data sectors there are zeros already
      refine rest sp₁ ⟨rests.sound, (ht.stays rests.took).alters, fun i => ?_⟩
      rw [rests.content]
      by_cases range : start ≤ i ∧ i < start + size
      · rw [if_pos range]
        exact byteIn_of_none (by rw [show i / 512 = start / 512 by omega]; exact there)
      · rw [if_neg range]
    | some id =>
      simp only
      rw [onStorage_bind]
      exact (meets_zeroPiece (p := ⟨start, size⟩) rests.sound tree there inside).bind
        (fun _ sp₂ h₂ => rest sp₂ (after sp₂ h₂)) fun c sp₂ h₂ => fails (rests.fails h₂)

end Space

/-! ## Writing -/

namespace Mapping

variable {m m' : Mapping} {t t' : Tree}

/-- From `m` to `m'` the bytes from `first` up to before `last` were overwritten by those of
`bytes`, which stand for the bytes from `offset` on. -/
structure Writes (m : Mapping) (t : Tree) (bytes : Bytes) (offset first last : Nat) (m' : Mapping)
    (t' : Tree) : Prop where
  sound : m'.Sound t'
  alters : t.Alters m.space.stock t' m'.space.stock
  bytes : ∀ i, byteIn m'.space.stock.content t'.data i =
    if first ≤ i ∧ i < last then bytes.getD (i - offset) 0
    else byteIn m.space.stock.content t.data i
  room : first < last → last ≤ 512 * t'.data.length

/-- A write that was to reach byte `goal` came to byte `last`. When that is all it took no more than
it needed, and otherwise there were too few free sectors for the next byte, or a transfer failed. -/
structure Spends (m : Mapping) (t : Tree) (last goal : Nat) (m' : Mapping) (t' : Tree) : Prop where
  all : last = goal → Tree.Thrifty (dataSectors goal) t t'
  short : last < goal →
    Stock.Lacks m.space.stock m'.space.stock (last / 512 + 1 - t'.data.length)

variable {bytes : Bytes} {offset first last last' : Nat}

theorem Grows.writes (h : m.Sound t) (g : m.Grows t m' t') (bytes : Bytes) (offset first : Nat) :
    m.Writes t bytes offset first first m' t' := by
  refine ⟨g.sound, g.grows.alters, fun i => ?_, fun lt => absurd lt (Nat.lt_irrefl _)⟩
  rw [if_neg (by omega)]
  exact g.grows.byteIn_eq h.tree i

theorem Writes.failures (h : m.Writes t bytes offset first last m' t') :
    m.space.stock.failures ≤ m'.space.stock.failures :=
  let ⟨_, took, _⟩ := h.alters.taken
  took.failures

theorem Writes.trans {m'' : Mapping} {t'' : Tree} (h : m.Writes t bytes offset first last m' t')
    (h' : m'.Writes t' bytes offset last last' m'' t'') (le : first ≤ last) (le' : last ≤ last') :
    m.Writes t bytes offset first last' m'' t'' := by
  have longer : t'.data.length ≤ t''.data.length := h'.alters.data.length_le
  refine ⟨h'.sound, h.alters.trans h'.alters, fun i => ?_, fun lt => ?_⟩
  · rw [h'.bytes, h.bytes]
    by_cases second : last ≤ i ∧ i < last'
    · rw [if_pos second, if_pos (by omega)]
    · rw [if_neg second]
      by_cases first' : first ≤ i ∧ i < last
      · rw [if_pos first', if_pos (by omega)]
      · rw [if_neg first', if_neg (by omega)]
  · by_cases e : last < last'
    · exact h'.room e
    · have := h.room (by omega)
      omega

/-- One piece is written, to its sector. -/
theorem meets_writePiece (h : m.Sound t) {id : SectorId} {p : Piece}
    (e : t.data[p.start / 512]? = some id) (inside : p.offset + p.size ≤ 512) (pos : 0 < p.size)
    (le : offset ≤ p.start) (enough : p.start - offset + p.size ≤ bytes.size) :
    Meets (onStorage (Storage.write id p.offset
        (bytes.extract (p.start - offset) (p.start - offset + p.size)))) m
      (fun _ m' => m.Writes t bytes offset p.start (p.start + p.size) m' t)
      (fun c m' => m.Grows t m' t ∧ Stock.Broke m.space.stock m'.space.stock c) := by
  have mem := List.mem_of_getElem? e
  have usable := (h.tree.held id (Tree.mem_sectors_data mem)).1
  have size : (bytes.extract (p.start - offset) (p.start - offset + p.size)).size = p.size := by
    rw [Array.size_extract]
    omega
  have here : p.offset = p.start % 512 := rfl
  refine (meets_onSpace (Space.meets_write h.space usable (by rw [size]; exact inside))).mono
    (fun _ m₁ h₁ => ?_) fun c m₁ h₁ => ?_
  · obtain ⟨rewrites, record⟩ := h₁
    have alters := h.tree.alters mem (rewrites.took_put rfl)
    refine ⟨⟨rewrites.sound, h.record.trans record.symm, alters.sound⟩, alters, fun i => ?_,
      fun _ => ?_⟩
    · rw [rewrites.content, here,
        byteIn_overlay h.tree.nodup.of_append_left e (by rw [size, ← here]; exact inside), size]
      by_cases range : p.start ≤ i ∧ i < p.start + p.size
      · rw [if_pos range, if_pos range, Array.getD_eq_getD_getElem?, Array.getD_eq_getD_getElem?,
          Array.getElem?_extract, if_pos (by omega)]
        congr 2
        omega
      · rw [if_neg range, if_neg range]
    · obtain ⟨lt, -⟩ := List.getElem?_eq_some_iff.1 e
      omega
  · obtain ⟨fails, record⟩ := h₁
    exact ⟨grows_of_space (fails.grows h.tree) (h.record.trans record.symm), fails.2⟩

/-- The pieces of a range are written, or those of a beginning of it. What stopped the write is
returned, but not when sectors ran out. -/
theorem meets_writePieces (bytes : Bytes) (offset : Nat) (h : m.Sound t) (inode : SectorId)
    (written len : Nat) (enough : written + len ≤ bytes.size)
    (below : len ≠ 0 → offset + (written + len) ≤ maxFileSize) :
    Meets (Volume.writePieces inode bytes offset written (pieces (offset + written) len)) m
      (fun r m' => written ≤ r.1 ∧ r.1 ≤ written + len ∧
        (∃ t', m.Writes t bytes offset (offset + written) (offset + r.1) m' t' ∧
          m.Spends t (offset + r.1) (offset + (written + len)) m' t') ∧
        ∀ c, r.2 = .error c → Stock.Broke m.space.stock m'.space.stock c)
      fun _ _ => False := by
  induction len using Nat.strongRecOn generalizing m t written with | ind len ih
  by_cases empty : len = 0
  · rw [empty, pieces_zero]
    exact meets_pure ⟨Nat.le_refl _, Nat.le_refl _,
      ⟨t, h.refl.writes h .., ⟨fun _ => .refl _ t, fun less => absurd less (Nat.lt_irrefl _)⟩⟩, nofun⟩
  · obtain ⟨size, pos, le, inside, e⟩ := pieces_of_pos (offset + written) empty
    have below := below empty
    have stops : ∀ {m₁ : Mapping} {t₁ : Tree} {r : Except Fault Unit}, m.Grows t m₁ t₁ →
        Stock.Lacks m.space.stock m₁.space.stock ((offset + written) / 512 + 1 - t₁.data.length) →
        (∀ c, r = .error c → Stock.Broke m.space.stock m₁.space.stock c) →
        written ≤ written ∧ written ≤ written + len ∧
          (∃ t', m.Writes t bytes offset (offset + written) (offset + written) m₁ t' ∧
            m.Spends t (offset + written) (offset + (written + len)) m₁ t') ∧
          ∀ c, r = .error c → Stock.Broke m.space.stock m₁.space.stock c :=
      fun grows lacks why => ⟨Nat.le_refl _, Nat.le_add_right _ _,
        ⟨_, grows.writes h .., ⟨fun all => absurd all (by omega), fun _ => lacks⟩⟩, why⟩
    rw [e]
    unfold Volume.writePieces
    refine Meets.bind (d := fun (r : Except Fault (Option SectorId)) m₁ => match r with
      | .ok x => ∃ t₁, m.Grows t m₁ t₁ ∧ x = t₁.data[(offset + written) / 512]? ∧
        (offset + written < maxFileSize → (offset + written) / 512 < t₁.data.length) ∧
        Tree.Thrifty ((offset + written) / 512 + 1) t t₁
      | .error c =>
        m.Stops (Growth.Unsaved (offset + written) m) ((offset + written) / 512 + 1) t c m₁)
      ((meets_ensure h (offset + written)).attempt (fun _ _ h => h) fun _ _ h => h)
      (fun r m₁ h₁ => ?_) fun _ _ no => no
    match r with
    | .error c =>
      obtain ⟨t₁, grows, halts⟩ := h₁
      have lacks := halts.why.lacks
      obtain ⟨count, -, rfl, -⟩ | ⟨⟨cause, rfl⟩, failed⟩ := halts.why
      · refine (meets_onSpace (Space.meets_note grows.sound.space _ (f := fun _ _ => False))).bind
          (fun _ m₂ h₂ => meets_pure ?_) fun _ _ no => no.1.elim
        have noted : m₁.Grows t₁ m₂ t₁ := grows_of_space
          (Space.Rests.grows h₂.1 grows.sound.tree) (grows.sound.record.trans h₂.2.symm)
        have same := (Space.Rests.took h₂.1 (X := Stock.nowhere)).left
        exact stops (grows.trans noted) (lacks.of_free h₂.1.failures fun id hid => (same id hid).1)
          nofun
      · refine meets_pure (stops grows lacks fun c e => ?_)
        cases e
        exact ⟨⟨cause, rfl⟩, failed⟩
    | .ok none =>
      obtain ⟨t₁, grows, e', there, -⟩ := h₁
      have := there (by omega)
      rw [List.getElem?_eq_getElem this] at e'
      cases e'
    | .ok (some id) =>
      obtain ⟨t₁, grows, e', -, thrifty⟩ := h₁
      refine Meets.bind (d := fun (r : Except Fault Unit) m₂ => match r with
        | .ok _ => m₁.Writes t₁ bytes offset (offset + written) (offset + written + size) m₂ t₁
        | .error c => m₁.Grows t₁ m₂ t₁ ∧ Stock.Broke m₁.space.stock m₂.space.stock c)
        ((meets_writePiece (p := ⟨offset + written, size⟩) grows.sound e'.symm inside pos
          (Nat.le_add_right _ _) (by simp only; omega)).attempt (fun _ _ h => h) fun _ _ h => h)
        (fun r m₂ h₂ => ?_) fun _ _ no => no
      cases r with
      | error c =>
        have broke := h₂.2.trans grows.failures
        refine meets_pure (stops (grows.trans h₂.1) (.inr broke.2) fun c' e => ?_)
        cases e
        exact broke
      | ok _ =>
        have begun := (grows.writes h bytes offset (offset + written)).trans h₂ (Nat.le_refl _)
          (Nat.le_add_right _ _)
        have next := ih (len - size) (by omega) h₂.sound (written + size) (by omega)
          fun _ => by omega
        rw [← Nat.add_assoc] at next
        refine next.mono (fun r m₃ h₃ => ?_) fun _ _ no => no
        obtain ⟨low, high, ⟨t₃, writes, spends⟩, why⟩ := h₃
        have needed : (offset + written) / 512 + 1 ≤ dataSectors (offset + (written + len)) := by
          show _ ≤ (offset + (written + len) + 511) / 512
          omega
        have goal : written + size + (len - size) = written + len := by omega
        rw [goal] at spends
        refine ⟨by omega, by omega, ⟨t₃, begun.trans writes (Nat.le_add_right _ _) (by omega),
          ⟨fun all => (thrifty.mono needed).trans (spends.all all),
            fun less => (spends.short less).trans begun.failures⟩⟩, fun c e => ?_⟩
        have broke := why c e
        exact ⟨broke.1, Nat.lt_of_le_of_lt begun.failures broke.2⟩

end Mapping

end SectorVolume
