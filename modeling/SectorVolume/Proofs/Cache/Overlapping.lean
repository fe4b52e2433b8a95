import SectorVolume.Proofs.Cache.Transparency
import SectorVolume.Proofs.Layout.Plain

/-!
# Overlapping views

All views of a sector share its bytes. A typed modification puts the bytes of the new value where
those of the old one were and leaves the other bytes alone. Whatever is viewed afterwards, as
whatever kind of value and at whatever offset, consists of the bytes that are there then, also when
the sector lost its slot in between.
-/

namespace SectorVolume

open SectorVolume.Action

variable {α : Type} {v : View α} {numerals : α → List Numeral} {offset : Nat}

/-- Byte `x` of the sector after `bytes` were written at `offset`: what was written there, or else
what was there before. -/
def Sector.patched (s : Sector) (offset : Nat) (bytes : List UInt8) (x : Nat) : Option UInt8 :=
  if offset ≤ x ∧ x < offset + bytes.length then bytes[x - offset]? else s[x]?

theorem Sector.getElem?_overlay (s : Sector) (offset : Nat) (bytes : List UInt8) {x : Nat}
    (hx : x < 512) : (s.overlay offset bytes.toArray)[x]? = s.patched offset bytes x := by
  rw [Vector.getElem?_eq_getElem hx, patched]
  split
  · next inside =>
    rw [getElem_overlay_of_mem s hx inside.1 (by simpa using inside.2),
      List.getElem?_eq_getElem (by omega)]
    simp
  · next outside =>
    rw [getElem_overlay_of_not_mem s hx (by rw [List.size_toArray]; omega),
      Vector.getElem?_eq_getElem hx]

/-! ## Views of one sector -/

namespace View

/-- The view lies inside the sector, asks for no stricter alignment than a sector has, and is
aligned. -/
structure Fits (v : View α) (offset : Nat) : Prop where
  inside : offset + v.size ≤ 512
  moderate : v.alignment ≤ sectorAlignment
  aligned : offset % v.alignment = 0

/-- The numbers of `a` have the bytes from `offset` on. -/
def Sees (v : View α) (numerals : α → List Numeral) (offset : Nat) (byte : Nat → Option UInt8)
    (a : α) : Prop :=
  ∀ k, k < v.size → (Numeral.bytes (numerals a))[k]? = byte (offset + k)

theorem read_of_fits (fits : v.Fits offset) (s : Sector) :
    v.read s offset = .ok (v.decode (s.window offset v.size fits.inside)) := by
  have range : ¬ offset + v.size ≥ wordRange64 :=
    Nat.not_le_of_lt (Nat.lt_of_le_of_lt fits.inside (by decide))
  unfold read bytes
  rw [if_neg range, dif_pos fits.inside, if_neg (Nat.not_lt.2 fits.moderate),
    if_neg (not_not.2 fits.aligned)]
  rfl

theorem modify_of_fits (fits : v.Fits offset) (s : Sector) (f : α → α) :
    v.modify s offset f =
      .ok (v.decode (s.window offset v.size fits.inside), s.overlay offset
        (v.encode (f (v.decode (s.window offset v.size fits.inside)))).toArray) := by
  unfold modify
  rw [read_of_fits fits]
  rfl

/-- A view is refused exactly if it does not fit, whatever the sector holds. -/
theorem fits_iff (s : Sector) : v.Fits offset ↔ ∃ a, v.read s offset = .ok a := by
  refine ⟨fun fits => ⟨_, read_of_fits fits s⟩, fun ⟨a, e⟩ => ?_⟩
  have inside := inside_of_read e
  have range : ¬ offset + v.size ≥ wordRange64 :=
    Nat.not_le_of_lt (Nat.lt_of_le_of_lt inside (by decide))
  unfold read bytes at e
  rw [if_neg range, dif_pos inside] at e
  by_cases strict : v.alignment > sectorAlignment
  · rw [if_pos strict] at e
    cases e
  · rw [if_neg strict] at e
    refine ⟨inside, Nat.not_lt.1 strict, ?_⟩
    by_contra misaligned
    rw [if_pos misaligned] at e
    cases e

namespace Plain

theorem length_bytes (h : v.Plain numerals) (a : α) :
    (Numeral.bytes (numerals a)).length = v.size := by
  rw [← h.bytes_encode, Vector.length_toList]

theorem toArray_encode (h : v.Plain numerals) (a : α) :
    (v.encode a).toArray = (Numeral.bytes (numerals a)).toArray := by
  rw [← h.bytes_encode]
  rfl

/-- What is read consists of the bytes of the sector. -/
theorem sees_read (h : v.Plain numerals) (fits : v.Fits offset) {s : Sector}
    {byte : Nat → Option UInt8} (hs : ∀ x, x < 512 → s[x]? = byte x) {a : α}
    (e : v.read s offset = .ok a) : v.Sees numerals offset byte a := by
  have inside := fits.inside
  rw [read_of_fits fits] at e
  cases e
  intro k hk
  rw [← hs _ (by omega), ← h.bytes_encode, h.encode_decode, Vector.getElem?_toList,
    Vector.getElem?_eq_getElem hk, Vector.getElem?_eq_getElem (by omega)]
  simp [Sector.window]

/-- What is modified becomes the bytes of the new value. -/
theorem getElem?_overlay_encode (h : v.Plain numerals) (s : Sector) (a : α) {x : Nat}
    (hx : x < 512) : (s.overlay offset (v.encode a).toArray)[x]? =
      s.patched offset (Numeral.bytes (numerals a)) x := by
  rw [h.toArray_encode, Sector.getElem?_overlay s offset _ hx]

end Plain

/-- The value at `offset` of `s`, `old` before, becomes `f old` in `s'`: no other bytes change, and
the bytes of the new value are what is seen. -/
structure Patches (v : View α) (numerals : α → List Numeral) (offset : Nat) (f : α → α)
    (s : Sector) (old : α) (s' : Sector) : Prop where
  modified : v.modify s offset f = .ok (old, s')
  read : v.read s offset = .ok old
  bytes : ∀ x, x < 512 → s'[x]? = s.patched offset (Numeral.bytes (numerals (f old))) x
  seen : ∀ {β : Type} {w : View β} {numerals' : β → List Numeral}, w.Plain numerals' →
    ∀ {offset' : Nat}, w.Fits offset' → ∃ b, w.read s' offset' = .ok b ∧
      w.Sees numerals' offset' (s.patched offset (Numeral.bytes (numerals (f old)))) b

theorem Plain.patches (h : v.Plain numerals) (fits : v.Fits offset) (f : α → α) (s : Sector) :
    ∃ old s', v.Patches numerals offset f s old s' := by
  refine ⟨_, _, modify_of_fits fits s f, read_of_fits fits s,
    fun _ hx => h.getElem?_overlay_encode s _ hx, fun h' _ fits' => ?_⟩
  obtain ⟨b, e⟩ := (fits_iff _).1 fits'
  exact ⟨b, e, h'.sees_read fits' (fun _ hx => h.getElem?_overlay_encode s _ hx) e⟩

end View

/-- All kinds of values that are kept in sectors are plain. -/
structure Lossless : Prop where
  record : Record.view.Plain Record.numerals
  indexBlock : IndexBlock.view.Plain IndexBlock.numerals
  superblock : Superblock.view.Plain Superblock.numerals
  words : View.words64.Plain fun ws => ws.toList.map fun w => ⟨8, w.toNat⟩
  whole : View.whole.Plain fun s => s.toList.map fun b => ⟨1, b.toNat⟩
  word64 : View.word64.Plain fun w => [⟨8, w.toNat⟩]
  word32 : View.word32.Plain fun w => [⟨4, w.toNat⟩]
  byte : View.byte.Plain fun b => [⟨1, b.toNat⟩]

theorem lossless : Lossless where
  record := Record.plain_view
  indexBlock := IndexBlock.plain_view
  superblock := Superblock.plain_view
  words := View.plain_words64
  whole := View.plain_whole
  word64 := View.plain_word64
  word32 := View.plain_word32
  byte := View.plain_byte

/-! ## Views of the content -/

/-- The sector that a request can change. -/
def Access.changes : Access → Option SectorId
  | write sector .. => some sector
  | modifyAs _ _ sector .. => some sector
  | modifyHeld _ _ p .. => some p.sector
  | _ => none

theorem Access.Correct.kept {before after : SectorId → Sector} {r : Access} {a : r.Answer}
    (h : r.Correct before after a) {sector : SectorId} (hr : r.changes ≠ some sector) :
    after sector = before sector := by
  have apart : ∀ {s : SectorId}, some s ≠ some sector → sector ≠ s := fun ne e => ne (e ▸ rfl)
  cases r with
  | write s offset bytes => exact h.others _ (apart hr)
  | modifyAs α view s offset f => exact h.2.others _ (apart hr)
  | modifyHeld α view p offset f => exact h.2.others _ (apart hr)
  | search s => rw [h.2]
  | load s => rw [h.2]
  | read s offset len => rw [h.2]
  | readAs α view s offset => rw [h.2]
  | readHeld α view p offset => rw [h.2]
  | drop p => exact congrFun h _
  | flushSector s => exact congrFun h _
  | flushAll => exact congrFun h _

namespace Storage

variable {st st' : Storage} {held held' : List Pin} {sector : SectorId}
  {byte : Nat → Option UInt8}

/-- Requests lead from `st` to `st'`, and none of those that were answered is to change the sector.
-/
inductive Later (sector : SectorId) (st : Storage) (held : List Pin) : Storage → List Pin → Prop
  | refl : Later sector st held st held
  | answered {st₁ st₂ : Storage} {held₁ : List Pin} (r : Access) {a : r.Answer} :
      Later sector st held st₁ held₁ → r.Allowed held₁ → r.changes ≠ some sector →
      r.run st₁ = .ok a st₂ → Later sector st held st₂ (r.holds held₁ a)
  | failed {st₁ st₂ : Storage} {held₁ : List Pin} (r : Access) {e : Failure} :
      Later sector st held st₁ held₁ → r.Allowed held₁ → r.run st₁ = .error e st₂ →
      Later sector st held st₂ held₁

theorem Later.kept (h : Later sector st held st' held') (good : st.Good False wordRange32 held) :
    st'.Good False wordRange32 held' ∧ st'.logical sector = st.logical sector := by
  induction h with
  | refl => exact ⟨good, rfl⟩
  | answered r _ hr apart e ih =>
    obtain ⟨good', correct⟩ := (r.ends_run ih.1 hr).ok e
    exact ⟨good', (correct.kept apart).trans ih.2⟩
  | failed r _ hr e ih =>
    have same := (r.ends_run ih.1 hr).error e
    exact ⟨same.good, (congrFun same.logical sector).trans ih.2⟩

/-- Whoever looks at the sector sees the bytes: through a pin, where nothing can go wrong, without
one, and at the sector as a whole. -/
structure Shows (sector : SectorId) (byte : Nat → Option UInt8) (st : Storage)
    (held : List Pin) : Prop where
  pinned : ∀ {β : Type} {w : View β} {numerals' : β → List Numeral}, w.Plain numerals' →
    ∀ {offset' : Nat}, w.Fits offset' → ∀ p ∈ held, p.sector = sector →
      Yields (readPinned w p offset') st fun b _ => w.Sees numerals' offset' byte b
  fetched : ∀ {β : Type} {w : View β} {numerals' : β → List Numeral}, w.Plain numerals' →
    ∀ {offset' : Nat}, w.Fits offset' →
      Ends (readView w sector offset') st (fun b _ => w.Sees numerals' offset' byte b)
        (Stops False wordRange32 held st)
  whole : Ends (readSector sector) st (fun b _ => ∀ x, x < 512 → b[x]? = byte x)
    (Stops False wordRange32 held st)

/-- A view that fits is not refused. -/
theorem Halts.stops {w : Prop} {n : Nat} {pins : List Pin} {s : Sector} {e : Failure}
    (h : Halts w n pins st (fun violation => v.read s offset = .error violation) e st')
    (fits : v.Fits offset) : Stops w n pins st e st' := by
  refine h.resolve_right ?_
  rintro ⟨⟨violation, -, refused⟩, -⟩
  rw [View.read_of_fits fits] at refused
  cases refused

/-- In a slot, a view that fits does not fail. -/
theorem yields_readViewSlot (fits : v.Fits offset) (st : Storage) (i : Nat) :
    Yields (readViewSlot v i offset) st fun _ _ => True := by
  unfold readViewSlot
  refine ends_get_bind (ends_ok_bind (View.read_of_fits fits _) ?_)
  exact ends_onCache_bind fun _ _ _ => ends_pure trivial

theorem yields_modifyViewSlot (fits : v.Fits offset) (st : Storage) (i : Nat) (f : α → α) :
    Yields (modifyViewSlot v i offset f) st fun _ _ => True := by
  unfold modifyViewSlot
  refine ends_get_bind (ends_ok_bind (View.modify_of_fits fits _ f) ?_)
  exact ends_onCache_bind fun _ _ _ => ends_pure trivial

/-- The bytes of a sector are what its views show. -/
theorem Good.shows (good : st.Good False wordRange32 held)
    (hb : ∀ x, x < 512 → (st.logical sector)[x]? = byte x) : st.Shows sector byte held where
  pinned h _ fits p hp e := by
    subst e
    exact ((ends_readViewSlot good _ (good.kept p hp) _).and (yields_readViewSlot fits st _)).mono
      (fun _ _ h' => h.sees_read fits hb h'.1.2) fun _ _ h' => h'.2
  fetched h _ fits :=
    (ends_readView good _ sector.toNat_lt _).mono (fun _ _ h' => h.sees_read fits hb h'.2)
      fun _ _ h' => h'.stops fits
  whole :=
    (ends_readSector good sector.toNat_lt).mono (fun _ _ h' x hx => h'.2 ▸ hb x hx) fun _ _ h' => h'

/-- The value at `offset` of the sector, `old` before, became `f old`: no other bytes changed, and
the bytes of the new value are what is seen as long as nobody changes the sector. -/
structure Stored (v : View α) (numerals : α → List Numeral) (sector : SectorId) (offset : Nat)
    (f : α → α) (held : List Pin) (st : Storage) (old : α) (st' : Storage) : Prop where
  read : v.read (st.logical sector) offset = .ok old
  overwrites : Overwrites st.logical st'.logical sector offset
    (Numeral.bytes (numerals (f old))).toArray
  shows : ∀ {st₂ : Storage} {held₂ : List Pin}, Later sector st' held st₂ held₂ →
    st₂.Shows sector ((st.logical sector).patched offset (Numeral.bytes (numerals (f old)))) held₂

theorem Becomes.stored {f : α → α} {old : α} (h : v.Plain numerals)
    (e : v.read (st.logical sector) offset = .ok old)
    (h' : Becomes False wordRange32 held st st' (Function.update st.logical sector
      ((st.logical sector).overlay offset (v.encode (f old)).toArray))) :
    Stored v numerals sector offset f held st old st' where
  read := e
  overwrites := h.toArray_encode (f old) ▸ Access.overwrites_of_modified e h'.logical
  shows later := by
    obtain ⟨good₂, kept⟩ := later.kept h'.good
    refine good₂.shows fun x hx => ?_
    rw [kept, h'.logical, Function.update_self, h.getElem?_overlay_encode _ _ hx]

theorem Good.stored_pinned (good : st.Good False wordRange32 held) (h : v.Plain numerals)
    (fits : v.Fits offset) (f : α → α) {p : Pin} (hp : p ∈ held) :
    Yields (modifyPinned v p offset f) st (Stored v numerals p.sector offset f held st) :=
  ((ends_modifyViewSlot good v (good.kept p hp) offset f).and
    (yields_modifyViewSlot fits st p.slot f)).mono (fun _ _ h' => h'.1.2.stored h h'.1.1)
      fun _ _ h' => h'.2

theorem Good.stored_fetched (good : st.Good False wordRange32 held) (h : v.Plain numerals)
    (fits : v.Fits offset) (f : α → α) (sector : SectorId) :
    Ends (modifyView v sector offset f) st (Stored v numerals sector offset f held st)
      (Stops False wordRange32 held st) :=
  (ends_modifyView good v sector.toNat_lt offset f).mono (fun _ _ h' => h'.2.stored h h'.1)
    fun _ _ h' => h'.stops fits

/-- Nothing is lost when a value is written and read as what it is, nor when bytes are read as a
value and written again. A modification through any view that fits is about its own bytes only, and
every view sees them from then on: of a sector by itself, and of the content of a storage, where it
does not matter what else happens in between. -/
theorem views_lossless_and_local :
    Lossless ∧ ∀ {α : Type} {v : View α} {numerals : α → List Numeral}, v.Plain numerals →
      (∀ a, (Numeral.bytes (numerals a)).length = v.size) ∧
      ∀ {offset : Nat}, v.Fits offset → ∀ f : α → α,
        (∀ s, ∃ old s', v.Patches numerals offset f s old s') ∧
        ∀ {capacity : Nat} {disk : Disk} {log : Log} {st : Storage} {held : List Pin},
          Reachable capacity disk log st held →
            (∀ p ∈ held, Yields (modifyPinned v p offset f) st
              (Stored v numerals p.sector offset f held st)) ∧
            ∀ sector, Ends (modifyView v sector offset f) st
              (Stored v numerals sector offset f held st) (Stops False wordRange32 held st) := by
  refine ⟨lossless, fun h => ⟨h.length_bytes, fun fits f => ⟨h.patches fits f, fun reached => ?_⟩⟩⟩
  have good := reached.good
  exact ⟨fun _ hp => good.stored_pinned h fits f hp, good.stored_fetched h fits f⟩

/-- In front of a memory disk a sector can be pinned, and a double word of it be changed. -/
theorem views_lossless_and_local_of_pinned :
    ∃ st p, p.sector = 3 ∧ Reachable 1 (Disk.memory 8) {} st [p] ∧
      Yields (modifyPinned View.word64 p 8 (· + 1)) st
        (Stored View.word64 (fun w => [⟨8, w.toNat⟩]) 3 8 (· + 1) [p] st) := by
  have works : True → (Disk.memory 8).Working 8 := fun _ => ⟨nofun, by decide, rfl⟩
  obtain ⟨cache, hc⟩ : ∃ cache, Cache.create 1 = .ok cache := ⟨_, rfl⟩
  have good : (⟨Disk.memory 8, cache, {}⟩ : Storage).Good True 8 [] := (good_of_create hc works).1
  have loading := ends_pin good (by decide : (3 : SectorId).toNat < 8)
  cases e : pin 3 .disk ⟨Disk.memory 8, cache, {}⟩ with
  | error e' st => exact absurd trivial (loading.error e).not_working
  | ok p st =>
    have third : p.sector = 3 := (loading.ok e).1
    have reached : Reachable 1 (Disk.memory 8) {} st [p] :=
      .answered (.load 3) (.start hc) trivial e
    have fits : View.word64.Fits 8 := ⟨by decide, by decide, rfl⟩
    have stored := ((views_lossless_and_local.2 View.plain_word64).2 fits (· + 1)).2 reached
    exact ⟨st, p, third, reached, third ▸ stored.1 p (List.mem_singleton.2 rfl)⟩

end Storage

end SectorVolume
