import SectorVolume.Proofs.Mapping.Tiers

/-!
# New sectors and entries of index blocks

Sectors that are allocated for a map are filled with zeros before anything refers to them. Making an
entry of an index block present takes new sectors for it and the missing entries before it, and
writes the block last; if that does not succeed the block is as before.
-/

namespace SectorVolume

/-- Entry `i` is present after `new` was added. -/
def Reaches (ids new : List SectorId) (i : Nat) : Prop :=
  i < ids.length ∧ new = [] ∨ ids.length ≤ i ∧ ids.length + new.length = i + 1

theorem Reaches.lt {ids new : List SectorId} {i : Nat} (h : Reaches ids new i) :
    i < (ids ++ new).length := by
  rw [List.length_append]
  rcases h with ⟨lt, rfl⟩ | ⟨-, e⟩
  · exact Nat.lt_add_right _ lt
  · omega

/-- Making entry `i` of an index block present gets as far as saving the block, and that fails. -/
def Growth.EntryUnsaved (block : SectorId) (i : Fin 128) (sp : Space) : Prop :=
  Action.Yields (Space.onStorage (IndexBlock.load block)) sp fun entries sp => entries.get i = 0 ∧
    Action.Yields (backfill entries i) sp fun entries sp =>
      ¬ Action.Yields (Space.onStorage (IndexBlock.save block entries)) sp fun _ _ => True

namespace Space

open SectorVolume.Action

variable {sp sp' sp'' : Space} {ids : List SectorId} {X : SectorId → Prop} {unsaved unsaved' : Prop}

/-- When one transfer failed, no free sector but `ids` was lost, unless what failed was giving back
what had been taken in vain, or an index block was left `unsaved`. -/
def Retains (unsaved : Prop) (ids : List SectorId) (sp : Space) (c : Fault) (sp' : Space) : Prop :=
  sp'.stock.failures ≤ sp.stock.failures + 1 →
    (∃ count, c = .exhausted count) ∨ unsaved ∨
      ∀ id, sp.stock.free id → id ∈ ids ∨ sp'.stock.free id

theorem retains_of_denies {count : Nat} {c : Fault}
    (h : Stock.Denies count sp.stock sp'.stock c) : sp.Retains unsaved ids c sp' := fun one =>
  h.elim (fun short => .inl ⟨count, short.1⟩) fun broke => .inr <| .inr fun id free =>
    .inr ((broke.2 one id free).resolve_left List.not_mem_nil)

/-- What was taken until the transfer failed is not lost more than what is taken now. -/
theorem Retains.after {limit : Nat} {c : Fault} (follows : Stock.Follows sp.stock sp'.stock)
    (unleaked : sp'.stock.failures = sp.stock.failures →
      ∀ id, sp.stock.free id → id ∈ ids ∨ sp'.stock.free id)
    (why : Stock.Stopped limit sp'.stock sp''.stock c) (h : sp'.Retains unsaved ids c sp'') :
    sp.Retains unsaved ids c sp'' := by
  intro one
  rcases why with ⟨count, -, e, -⟩ | broke
  · exact .inl ⟨count, e⟩
  · have le := follows.failures
    have lt := broke.2
    refine (h (by omega)).imp_right (Or.imp_right fun kept id free => ?_)
    exact (unleaked (by omega) id free).elim .inl (kept id)

theorem Retains.before {c : Fault} (h : sp.Retains unsaved ids c sp')
    (failures : sp'.stock.failures ≤ sp''.stock.failures)
    (kept : ∀ id, sp'.stock.free id → sp''.stock.free id) : sp.Retains unsaved ids c sp'' :=
  fun one => (h (Nat.le_trans failures one)).imp_right <| Or.imp_right fun free id hid =>
    (free id hid).imp_right (kept id)

theorem Retains.mono {ids' : List SectorId} {c : Fault} (h : sp.Retains unsaved ids c sp')
    (sub : ids ⊆ ids') (imp : unsaved → unsaved') : sp.Retains unsaved' ids' c sp' := fun one =>
  (h one).imp_right <| Or.imp imp fun free id hid => (free id hid).imp_left fun hid => sub hid

variable [Promise]

/-- The sectors `new` were taken and hold zeros. Beside these only `X` changed. -/
structure Obtains (X : SectorId → Prop) (sp : Space) (new : List SectorId) (sp' : Space) :
    Prop where
  sound : sp'.Sound
  took : Stock.Took X new sp.stock sp'.stock
  zero : ∀ id ∈ new, sp'.stock.content id = Sector.zero

/-- There were too few free sectors, with at most `limit` asked for, or a transfer failed, and no
taken sector changed. -/
structure Refuses (unsaved : Prop) (limit : Nat) (sp : Space) (c : Fault) (sp' : Space) : Prop where
  sound : sp'.Sound
  took : Stock.Took Stock.nowhere [] sp.stock sp'.stock
  why : Stock.Stopped limit sp.stock sp'.stock c
  retains : sp.Retains unsaved [] c sp'

theorem Refuses.mono {limit limit' : Nat} {c : Fault} (h : sp.Refuses unsaved limit c sp')
    (le : limit ≤ limit') (imp : unsaved → unsaved') : sp.Refuses unsaved' limit' c sp' :=
  { h with why := h.why.mono le, retains := h.retains.mono (List.Subset.refl _) imp }

theorem Fails.refuses {limit : Nat} {c : Fault} (h : sp.Fails c sp') :
    sp.Refuses unsaved limit c sp' := by
  refine ⟨h.1.sound, h.1.took, h.2.stopped, fun _ => .inr (.inr fun id free => .inr ?_)⟩
  exact (Rests.gave h.1).kept id free

theorem Rests.refuses {limit : Nat} {c : Fault} (h : sp.Rests sp')
    (h' : sp'.Refuses unsaved limit c sp'') : sp.Refuses unsaved limit c sp'' :=
  ⟨h'.sound, h.took.nil_trans h'.took fun _ _ h => h, Stock.Stopped.trans h.failures h'.why,
    h'.retains.after h.gave.toFollows (fun _ id free => .inr (h.gave.kept id free)) h'.why⟩

/-- What was obtained is lost when it cannot be hung in. -/
theorem Obtains.refuses {limit : Nat} {c : Fault} {new : List SectorId}
    (h : Obtains Stock.nowhere sp new sp') (h' : sp'.Fails c sp'') (hu : unsaved) :
    sp.Refuses unsaved limit c sp'' := by
  have broke := Stock.Broke.trans h.took.failures h'.2
  refine ⟨h'.1.sound, ?_, broke.stopped, fun _ => .inr (.inl hu)⟩
  exact (h.took.trans_nil h'.1.took fun _ _ h => h).lose broke.2

theorem Sound.held_of_took (h : sp.Sound) {new : List SectorId}
    (took : Stock.Took X new sp.stock sp'.stock) :
    ∀ id ∈ new, sp'.stock.Held id := fun _ hid => took.held_of_mem h.usable hid

/-- A transfer failed while the taken sectors `ids` were being written. -/
structure Spoils (ids : List SectorId) (sp : Space) (c : Fault) (sp' : Space) : Prop where
  sound : sp'.Sound
  took : Stock.Took (· ∈ ids) [] sp.stock sp'.stock
  broke : Stock.Broke sp.stock sp'.stock c
  mended : Stock.Mended [] sp.stock sp'.stock

theorem Fails.spoils {c : Fault} (h : sp.Fails c sp') : sp.Spoils ids c sp' :=
  ⟨h.1.sound, h.1.took, h.2, .of_kept (Rests.gave h.1).kept⟩

/-- Sectors were written and then a transfer failed. -/
theorem Spoils.after {ids' : List SectorId} {c : Fault}
    (took : Stock.Took (· ∈ ids) [] sp.stock sp'.stock) (h : sp'.Spoils ids' c sp'')
    (sub : ids' ⊆ ids) : sp.Spoils ids c sp'' :=
  ⟨h.sound, took.nil_trans h.took fun _ _ hs => sub hs, h.broke.trans took.failures,
    took.mended h.broke.2 h.mended⟩

/-! ## Zeros -/

theorem meets_writeZeros (h : sp.Sound) {id : SectorId} (hs : sp.stock.Usable id) :
    Meets (onStorage (Storage.writeZeros id)) sp
      (fun _ sp' => sp.Rewrites sp' (Function.update sp.stock.content id Sector.zero)) sp.Fails :=
  meets_onStorage_put h hs.2.1 (Storage.meets_writeZeros h.storage hs.lt)

theorem Rewrites.dormant {id : SectorId}
    (h : sp.Rewrites sp' (Function.update sp.stock.content id Sector.zero)) (s : SectorId) :
    Stock.Dormant sp.stock sp'.stock s := by
  unfold Stock.Dormant
  rw [h.content]
  by_cases e : s = id
  · exact .inr (e ▸ Function.update_self ..)
  · exact .inl (Function.update_of_ne e ..)

theorem meets_zeroAll (h : sp.Sound) (held : ∀ id ∈ ids, sp.stock.Held id) :
    Meets (Growth.zeroAll ids) sp
      (fun _ sp' => sp'.Sound ∧ Stock.Took (· ∈ ids) [] sp.stock sp'.stock ∧
        ∀ id ∈ ids, sp'.stock.content id = Sector.zero)
      (fun c sp' => sp.Spoils ids c sp' ∧ ∀ s, Stock.Dormant sp.stock sp'.stock s) := by
  induction ids generalizing sp with
  | nil => exact meets_pure ⟨h, .refl _, nofun⟩
  | cons id rest ih =>
    have held₀ := held id List.mem_cons_self
    unfold Growth.zeroAll
    refine (meets_writeZeros h held₀.1).bind (fun _ sp₁ h₁ => ?_) fun c sp₁ h₁ => ?_
    · have took : Stock.Took (· ∈ id :: rest) [] sp.stock sp₁.stock :=
        h₁.took_put List.mem_cons_self
      refine (ih h₁.sound fun id' hid' => took.held (held id' (List.mem_cons_of_mem _ hid'))).mono
        (fun _ sp₂ h₂ => ?_) fun c sp₂ h₂ => ?_
      · refine ⟨h₂.1, took.nil_trans h₂.2.1 fun _ _ hs => List.mem_cons_of_mem _ hs,
          fun id' hid' => ?_⟩
        by_cases hmem : id' ∈ rest
        · exact h₂.2.2 id' hmem
        · obtain rfl := (List.mem_cons.1 hid').resolve_right hmem
          rw [h₂.2.1.content (took.held held₀) hmem, h₁.content, Function.update_self]
      · exact ⟨h₂.1.after took (List.subset_cons_self id rest),
          fun s => (h₁.dormant s).trans (h₂.2 s)⟩
    · exact ⟨h₁.spoils, fun s => .inl (congrFun h₁.1.content s)⟩

/-- New sectors hold zeros. -/
theorem meets_allocateZeroed (h : sp.Sound) {count : Nat} (listable : FreeMap.Listable count) :
    Meets (Growth.allocateZeroed count) sp
      (fun ids sp' => ids.length = count ∧ Obtains Stock.nowhere sp ids sp')
      (sp.Refuses False count) := by
  unfold Growth.allocateZeroed
  refine (meets_allocate h listable).bind (fun ids sp₁ h₁ => ?_) fun c sp₁ h₁ => ?_
  · obtain ⟨sound, length, took⟩ := h₁
    have held := h.held_of_took took.toTook
    refine Meets.bind (d := fun r sp₂ => sp₂.Sound ∧
      Stock.Took Stock.nowhere ids sp.stock sp₂.stock ∧ match r with
        | .ok _ => ∀ id ∈ ids, sp₂.stock.content id = Sector.zero
        | .error c => Stock.Broke sp.stock sp₂.stock c ∧
          (∀ s, ¬ sp.stock.own s → Stock.Dormant sp.stock sp₂.stock s) ∧
          Stock.Mended ids sp.stock sp₂.stock)
      ((meets_zeroAll sound held).attempt (fun _ sp₂ h₂ => ?_) fun c sp₂ h₂ => ?_)
      (fun r sp₂ h₂ => ?_) fun _ _ h => h
    · exact ⟨h₂.1, took.fill h₂.2.1, h₂.2.2⟩
    · obtain ⟨spoils, dormant⟩ := h₂
      exact ⟨spoils.sound, took.fill spoils.took, spoils.broke.trans took.failures,
        fun s own => Stock.Dormant.trans (.inl (took.still s own)) (dormant s),
        took.toTook.mended spoils.broke.2 spoils.mended⟩
    · obtain ⟨sound₂, took₂, h₂⟩ := h₂
      cases r with
      | ok _ => exact meets_pure ⟨length, sound₂, took₂, h₂⟩
      | error c =>
        obtain ⟨broke, dormant, mended⟩ := h₂
        have after : ∀ sp₃ : Space, Stock.Gave ids sp₂.stock sp₃.stock →
            Stock.Took Stock.nowhere [] sp.stock sp₃.stock :=
          fun sp₃ gave => took₂.undo gave (List.Subset.refl _) (fun _ => List.Subset.refl _)
            fun s _ own _ => dormant s own
        refine (meets_releaseAll sound₂ took₂.nodup (h.held_of_took took₂)).bind
          (fun _ sp₃ h₃ => meets_fail ?_) fun c' sp₃ h₃ => ?_
        · obtain ⟨sound₃, gave, -⟩ := h₃
          have denies : Stock.Denies count sp.stock sp₃.stock c :=
            .inr ⟨broke.of_le gave.failures, mended.gave broke.2 gave⟩
          exact ⟨sound₃, after sp₃ gave, denies.stopped (Nat.le_refl _), retains_of_denies denies⟩
        · obtain ⟨sound₃, gave, broke'⟩ := h₃
          have denies : Stock.Denies count sp.stock sp₃.stock c' :=
            .inr ⟨broke'.trans (Nat.le_of_lt broke.2), .of_lt broke.2 broke'.2⟩
          exact ⟨sound₃, after sp₃ gave, denies.stopped (Nat.le_refl _), retains_of_denies denies⟩
  · exact ⟨h₁.1, h₁.2.1.toTook, h₁.2.2.stopped (Nat.le_refl _), retains_of_denies h₁.2.2⟩

theorem meets_allocateOne (h : sp.Sound) :
    Meets Growth.allocateOne sp
      (fun id sp' => Obtains Stock.nowhere sp [id] sp') (sp.Refuses False 1) := by
  unfold Growth.allocateOne
  refine (meets_allocateZeroed h (by decide)).bind (fun ids sp₁ h₁ => ?_) fun _ _ h => h
  obtain ⟨id, rfl⟩ := List.length_eq_one_iff.1 h₁.1
  exact meets_pure h₁.2

/-! ## Entries -/

theorem meets_load (h : sp.Sound) {id : SectorId} (hs : sp.stock.Usable id) :
    Meets (onStorage (IndexBlock.load id)) sp
      (fun b sp' => b = IndexBlock.ofSector (sp.stock.content id) ∧ sp.Rests sp') sp.Fails :=
  meets_onStorage_rests h (Record.meets_load h.storage hs.lt)

theorem meets_save (h : sp.Sound) {id : SectorId} (hs : sp.stock.Usable id) (ids : List SectorId) :
    Meets (onStorage (IndexBlock.save id (listed 128 ids))) sp
      (fun _ sp' =>
        sp.Rewrites sp' (Function.update sp.stock.content id (IndexBlock.sectorOf ids)))
      sp.Fails :=
  meets_onStorage_put h hs.2.1 (Storage.meets_replaceSector h.storage hs.lt _)

theorem meets_backfill {n : Nat} (small : n ≤ wordRange32) (h : sp.Sound)
    (nonzero : ∀ id ∈ ids, id ≠ 0) (i : Fin n) :
    Meets (Growth.backfill (listed n ids) i) sp
      (fun entries sp' => ∃ new, entries = listed n (ids ++ new) ∧ Reaches ids new i ∧
        Obtains Stock.nowhere sp new sp')
      (sp.Refuses False (i.val + 1 - ids.length)) := by
  have hi := i.isLt
  unfold Growth.backfill
  rw [get_listed]
  by_cases e : i.val < ids.length
  · rw [if_pos ((getD_ne_zero_iff nonzero).2 e)]
    exact meets_pure ⟨[], by rw [List.append_nil], .inl ⟨e, rfl⟩, h, .refl _, nofun⟩
  · rw [if_neg fun e' => e ((getD_ne_zero_iff nonzero).1 e')]
    simp only
    rw [firstMissing_listed nonzero (by omega) (by omega)]
    have listable : FreeMap.Listable (i.val + 1 - ids.length) :=
      FreeMap.listable_of_le (by omega)
    refine (meets_allocateZeroed h listable).bind (fun new sp₁ h₁ => ?_) fun _ _ h => h
    exact meets_pure ⟨new, setFrom_listed ids new, .inr ⟨by omega, by rw [h₁.1]; omega⟩, h₁.2⟩

/-- The entries behind the end of an index block are added up to entry `i`. -/
theorem meets_ensureEntry (h : sp.Sound) {block : SectorId} (held : sp.stock.Held block)
    (content : sp.stock.content block = IndexBlock.sectorOf ids)
    (nonzero : ∀ id ∈ ids, id ≠ 0) (i : Fin 128) :
    Meets (Growth.ensureEntry block i) sp
      (fun x sp' => ∃ new, (ids ++ new)[i.val]? = some x ∧ Reaches ids new i ∧
        Obtains (· = block) sp new sp' ∧
        sp'.stock.content block = IndexBlock.sectorOf (ids ++ new))
      (sp.Refuses (Growth.EntryUnsaved block i sp) (i.val + 1 - ids.length)) := by
  unfold Growth.ensureEntry
  refine (meets_load h held.1).run.bind (fun entries sp₁ h₁ => ?_) fun _ _ h => h.1.refuses
  obtain ⟨⟨rfl, rests⟩, loaded⟩ := h₁
  have hi := i.isLt
  have present : ∀ {ids : List SectorId}, i.val < ids.length →
      ids[i.val]? = some (ids.getD i 0) := by
    intro ids lt
    rw [List.getD_eq_getElem _ _ lt, List.getElem?_eq_getElem lt]
  rw [content, IndexBlock.ofSector_sectorOf] at loaded ⊢
  rw [get_listed]
  by_cases e : i.val < ids.length
  · rw [if_pos ((getD_ne_zero_iff nonzero).2 e)]
    refine meets_pure ⟨[], ?_, .inl ⟨e, rfl⟩, ⟨rests.sound, rests.took, nofun⟩, ?_⟩
    · rw [List.append_nil]
      exact present e
    · rw [rests.content, content, List.append_nil]
  · have missing : ids.getD i.val 0 = 0 :=
      Classical.not_not.1 fun e' => e ((getD_ne_zero_iff nonzero).1 e')
    rw [if_neg fun e' => e' missing]
    refine (meets_backfill (by decide) rests.sound nonzero i).run.bind (fun entries sp₂ h₂ => ?_)
      fun _ _ h => rests.refuses (h.1.mono (Nat.le_refl _) False.elim)
    obtain ⟨⟨new, rfl, reaches, obtains⟩, grown⟩ := h₂
    have obtained : Obtains Stock.nowhere sp new sp₂ :=
      ⟨obtains.sound, rests.took.nil_trans obtains.took fun _ _ h => h, obtains.zero⟩
    have held₂ : sp₂.stock.Held block := obtained.took.held held
    refine (meets_save obtained.sound held₂.1 (ids ++ new)).run.bind (fun _ sp₃ h₃ => ?_)
      fun _ _ h => obtained.refuses h.1 (yields_of_ok loaded ⟨(get_listed ..).trans missing,
        yields_of_ok grown (not_yields_of_error h.2)⟩)
    replace h₃ := h₃.1
    have notin : block ∉ new := fun hmem => held.2 (obtained.took.free block hmem)
    rw [get_listed]
    refine meets_pure ⟨new, present reaches.lt, reaches, ⟨h₃.sound, ?_, fun id hid => ?_⟩, ?_⟩
    · have saved : Stock.Took (· = block) [] sp₂.stock sp₃.stock := h₃.took_put rfl
      exact (obtained.took.mono fun _ _ no => no.elim).trans_nil saved fun _ _ h => h
    · have other : id ≠ block := fun e' => notin (e' ▸ hid)
      rw [h₃.content, Function.update_of_ne other]
      exact obtained.zero id hid
    · rw [h₃.content, Function.update_self]

/-- What is taken for entries of an index block is lost when the block cannot be saved. -/
theorem ends_ensureEntry_unsaved (h : sp.Sound) {block : SectorId} (held : sp.stock.Held block)
    (content : sp.stock.content block = IndexBlock.sectorOf ids) (nonzero : ∀ id ∈ ids, id ≠ 0)
    (i : Fin 128) (unsaved : Growth.EntryUnsaved block i sp) :
    Ends (Growth.ensureEntry block i) sp (fun _ _ => False) fun _ sp' =>
      ∃ id, sp.stock.free id ∧ ¬ sp'.stock.free id := by
  obtain ⟨entries, sp₁, loaded, absent, unsaved⟩ := Ends.succeeds unsaved
  obtain ⟨grown, sp₂, filled, unsaved⟩ := Ends.succeeds unsaved
  obtain ⟨rfl, rests⟩ := (meets_load h held.1).ok loaded
  rw [content, IndexBlock.ofSector_sectorOf] at loaded absent filled
  obtain ⟨new, rfl, reaches, obtains⟩ := (meets_backfill (by decide) rests.sound nonzero i).ok filled
  have took : Stock.Took Stock.nowhere new sp.stock sp₂.stock :=
    rests.took.nil_trans obtains.took fun _ _ h => h
  obtain ⟨id, hid⟩ : ∃ id, id ∈ new := by
    refine List.exists_mem_of_ne_nil new fun none => ?_
    rw [get_listed] at absent
    rcases reaches with ⟨lt, -⟩ | ⟨le, e⟩
    · exact (getD_ne_zero_iff nonzero).2 lt absent
    · rw [none, List.length_nil] at e
      omega
  unfold Growth.ensureEntry
  refine Ends.of_eq ?_ (run_bind loaded rfl)
  rw [if_neg fun e => e absent]
  refine Ends.of_eq ?_ (run_bind filled rfl)
  refine (meets_save obtains.sound (took.held held).1 (ids ++ new)).run.ends.bind
    (fun _ sp₃ h₃ => ?_) ?_
  · exact (unsaved (yields_of_ok h₃.2 trivial)).elim
  · rintro _ sp₃ ⟨c, -, fails, -⟩
    refine ⟨id, took.free id hid, fun free => ?_⟩
    exact (took.left id ((Rests.took fails.1 (X := Stock.nowhere)).left id free).1).2 hid

end Space

end SectorVolume
