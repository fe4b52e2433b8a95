import SectorVolume.Proofs.Mapping.Tree

/-!
# Growing a tree

Making the entry for a byte present lets the tree of the record grow. That also holds when it stops
halfway, because there are too few free sectors or because the disk fails: what was hung in by then
stays, and what was not is free again, or lost if the disk failed.
-/

namespace SectorVolume

open SectorVolume.Action

/-- The entry of a piece of the tree is one of the tree. -/
theorem getElem?_of_chunk {data new : List SectorId} {first i : Nat} {x : SectorId}
    (reaches : Reaches (Record.chunk data first) new i) (hi : i < 128) (start : first ≤ data.length)
    (h : (Record.chunk data first ++ new)[i]? = some x) :
    (data ++ new)[first + i]? = some x ∧ (new = [] ∨ data.length + new.length = first + i + 1) := by
  have length := Record.length_chunk data first
  rcases reaches with ⟨lt, rfl⟩ | ⟨le, e⟩
  · rw [List.append_nil, Record.getElem?_chunk data first hi] at h
    rw [List.append_nil]
    exact ⟨h, .inl rfl⟩
  · rw [← Record.chunk_append new start (by omega), Record.getElem?_chunk _ first hi] at h
    exact ⟨h, .inr (by omega)⟩

/-- Data sectors were added up to entry `i`. -/
theorem thrifty_append {t : Tree} {new : List SectorId} {i : Nat}
    (room : new = [] ∨ t.data.length + new.length = i + 1) :
    Tree.Thrifty (i + 1) t ⟨t.record, t.data ++ new, t.children⟩ := by
  refine Tree.thrifty_of_blocks rfl ?_
  show (t.data ++ new).length ≤ _
  rw [List.length_append]
  rcases room with rfl | room
  · exact Nat.le_max_left ..
  · omega

namespace Growth

/-- Hanging in `count` index blocks gets as far as saving one of them, and that fails. -/
def ChildrenUnsaved : Nat → Space → Prop
  | 0, _ => False
  | count + 1, sp => Yields allocateOne sp fun child sp => count ≠ 0 ∧
      (EntryUnsaved child (Fin.last 127) sp ∨
        Yields (ensureEntry child (Fin.last 127)) sp fun _ sp => ChildrenUnsaved count sp)

/-- Making a top block reach entry `outer` gets as far as saving one of the index blocks below, and
that fails. -/
def TopUnsaved (top : IndexBlock) (first outer : Nat) (sp : Space) : Prop :=
  if first = 0 then ChildrenUnsaved (outer + 1 - first) sp
  else
    let last := top[first - 1]?.getD 0
    EntryUnsaved last (Fin.last 127) sp ∨ Yields (ensureEntry last (Fin.last 127)) sp fun _ sp =>
      ChildrenUnsaved (outer + 1 - first) sp

end Growth

variable [Promise]

/-! ## Trees in a space -/

namespace Space

variable {sp sp' sp₀ : Space} {t t' t₀ : Tree}

/-- Afterwards the tree is `t'`. -/
structure Grows (sp : Space) (t : Tree) (sp' : Space) (t' : Tree) : Prop where
  sound : sp'.Sound
  grows : t.Grows sp.stock t' sp'.stock

/-- Growing towards `n` data sectors came to a halt with the tree `t'`. In the end no more sectors
were asked for than data sectors were missing, and what had been taken is part of the tree. -/
structure Halts (unsaved : Prop) (n : Nat) (sp : Space) (t' : Tree) (c : Fault) (sp' : Space) :
    Prop where
  why : Stock.Stopped (n - t'.data.length) sp.stock sp'.stock c
  retains : sp.Retains unsaved t'.sectors c sp'

variable {n : Nat} {c : Fault} {unsaved unsaved' : Prop}

theorem Refuses.grows {limit : Nat} (h : sp.Refuses unsaved limit c sp') (ht : t.Sound sp.stock) :
    sp.Grows t sp' t := ⟨h.sound, ht.stays h.took⟩

theorem Refuses.halts {limit : Nat} (h : sp.Refuses unsaved limit c sp')
    (le : limit ≤ n - t.data.length) (imp : unsaved → unsaved') : sp.Halts unsaved' n t c sp' :=
  ⟨h.why.mono le, h.retains.mono (List.nil_subset _) imp⟩

omit [Promise] in
theorem Halts.mono {n' : Nat} (h : sp.Halts unsaved n t c sp') (le : n ≤ n')
    (imp : unsaved → unsaved') : sp.Halts unsaved' n' t c sp' :=
  ⟨h.why.mono (Nat.sub_le_sub_right le _), h.retains.mono (List.Subset.refl _) imp⟩

omit [Promise] in
/-- What was taken before is part of the tree. -/
theorem Halts.after {sp'' : Space} (follows : Stock.Follows sp.stock sp'.stock)
    (unleaked : sp'.stock.failures = sp.stock.failures →
      ∀ id, sp.stock.free id → id ∈ t.sectors ∨ sp'.stock.free id)
    (h : sp'.Halts unsaved n t c sp'') : sp.Halts unsaved n t c sp'' :=
  ⟨h.why.trans follows.failures, h.retains.after follows unleaked h.why⟩

theorem Grows.halts {sp'' : Space} {t'' : Tree} (h : sp.Grows t sp' t')
    (sub : t'.sectors ⊆ t''.sectors) (h' : sp'.Halts unsaved n t'' c sp'') : sp.Halts unsaved n t'' c sp'' :=
  h'.after h.grows.follows fun clean id free =>
    (h.grows.unleaked clean id free).imp_left fun hid => sub hid

theorem Halts.rewrites {sp'' : Space} {L : SectorId → Sector} (h : sp.Halts unsaved n t c sp')
    (h' : sp'.Rewrites sp'' L) : sp.Halts unsaved n t c sp'' :=
  ⟨h'.stopped h.why, h.retains.before h'.failures fun id free => by
    rw [h'.stock]
    exact free⟩

theorem Rests.grows (h : sp.Rests sp') (ht : t.Sound sp.stock) : sp.Grows t sp' t :=
  ⟨h.sound, ht.stays h.took⟩

theorem Fails.grows {c : Fault} (h : sp.Fails c sp') (ht : t.Sound sp.stock) :
    sp.Grows t sp' t := Rests.grows h.1 ht

/-- The tree is read as it is. -/
theorem meets_mapped (h : sp.Sound) (ht : t.Sound sp.stock) :
    Meets (onStorage t.record.mapped) sp
      (fun r sp' => r = ⟨t.data, t.blocks⟩ ∧ sp.Rests sp') sp.Fails := by
  refine (meets_onStorage_rests h (Record.meets_mapped h.storage ht.maps ht.inside)).mono
    (fun r sp₁ h₁ => ⟨?_, h₁.2⟩) fun _ _ h => h
  rw [h₁.1]
  exact ht.mappedIn_eq

theorem meets_lookup (h : sp.Sound) (ht : t.Sound sp.stock) (offset : Nat) :
    Meets (onStorage (t.record.lookup offset)) sp
      (fun x sp' => x = t.data[offset / 512]? ∧ sp.Rests sp') sp.Fails :=
  meets_onStorage_rests h (Record.meets_lookup h.storage ht.maps ht.inside offset)

/-! ## Entries of the index blocks -/

/-- An entry of the first index block is made present. -/
theorem meets_ensureFirst (h : sp.Sound) (ht : t.Sound sp.stock) (e : t.record.indirect ≠ 0)
    (i : Fin 128) :
    Meets (Growth.ensureEntry t.record.indirect i) sp
      (fun x sp' => ∃ new, sp.Grows t sp' ⟨t.record, t.data ++ new, t.children⟩ ∧
        (t.data ++ new)[12 + i.val]? = some x ∧
        Tree.Thrifty (12 + i.val + 1) t ⟨t.record, t.data ++ new, t.children⟩)
      (sp.Refuses (Growth.EntryUnsaved t.record.indirect i sp)
        (12 + i.val + 1 - t.data.length)) := by
  obtain ⟨start, content⟩ := ht.maps.first e
  have held := ht.held _ (Tree.mem_sectors_blocks (Record.Maps.mem_blocks_first e))
  have length := Record.length_chunk t.data 12
  have hi := i.isLt
  refine (meets_ensureEntry h held content (ht.maps.nonzero_chunk 12) i).mono
    (fun x sp₁ h₁ => ?_) fun _ _ h => h.mono (by omega) id
  obtain ⟨new, entry, reaches, obtains, after⟩ := h₁
  obtain ⟨entry, room⟩ := getElem?_of_chunk reaches i.isLt start entry
  refine ⟨new, ⟨obtains.sound, ?_⟩, entry, thrifty_append room⟩
  rcases room with rfl | room
  · rw [List.append_nil] at after ⊢
    refine ht.stays (obtains.took.same fun s hs => ?_)
    rw [hs, after, content]
  · exact ht.append_first h.usable e obtains.took obtains.zero (by omega) after

/-- An entry of an index block below the top block is made present. -/
theorem meets_ensureBelow (h : sp.Sound) (ht : t.Sound sp.stock) {k : Nat}
    (hk : k < t.children.length) (i : Fin 128) :
    Meets (Growth.ensureEntry t.children[k] i) sp
      (fun x sp' => ∃ new, sp.Grows t sp' ⟨t.record, t.data ++ new, t.children⟩ ∧
        (t.data ++ new)[140 + 128 * k + i.val]? = some x ∧
        Tree.Thrifty (140 + 128 * k + i.val + 1) t ⟨t.record, t.data ++ new, t.children⟩)
      (sp.Refuses (Growth.EntryUnsaved t.children[k] i sp)
        (140 + 128 * k + i.val + 1 - t.data.length)) := by
  have content := ht.maps.child k hk
  have start := ht.maps.full k hk
  have block := ht.maps.mem_blocks_child (List.getElem_mem hk)
  have held := ht.held _ (Tree.mem_sectors_blocks block)
  have length := Record.length_chunk t.data (140 + 128 * k)
  have hi := i.isLt
  refine (meets_ensureEntry h held content (ht.maps.nonzero_chunk _) i).mono
    (fun x sp₁ h₁ => ?_) fun _ _ h => h.mono (by omega) id
  obtain ⟨new, entry, reaches, obtains, after⟩ := h₁
  obtain ⟨entry, room⟩ := getElem?_of_chunk reaches i.isLt start entry
  refine ⟨new, ⟨obtains.sound, ?_⟩, entry, thrifty_append room⟩
  by_cases none : new = []
  · subst none
    rw [List.append_nil] at after ⊢
    refine ht.stays (obtains.took.same fun s hs => ?_)
    rw [hs, after, content]
  · -- a block that is not full is the last one
    have room := room.resolve_left none
    have some : 0 < new.length := List.length_pos_iff.2 none
    have last : k + 1 = t.children.length := by
      by_contra ne
      have := ht.maps.full (k + 1) (by omega)
      omega
    exact ht.append_child h.usable last hk obtains.took obtains.zero (by omega) after

/-! ## The top block -/

/-- While index blocks are being hung in, the top block in memory is ahead of the one in the
storage. `t` is the tree once the top block is written; until then there is a smaller one, and what
was taken for `t` would be lost. -/
structure Pending (t₀ : Tree) (sp₀ : Space) (t : Tree) (sp : Space) : Prop where
  sound : sp.Sound
  record : t.record = t₀.record
  top : t₀.record.doubleIndirect ≠ 0
  behind : sp.stock.content t₀.record.doubleIndirect = IndexBlock.sectorOf t₀.children
  saved : t₀.Grows sp₀.stock t
    (sp.stock.put t₀.record.doubleIndirect (IndexBlock.sectorOf t.children))
  unsaved : ∃ t₁ s₁ ids, t₀.Grows sp₀.stock t₁ s₁ ∧ t₁.record = t₀.record ∧
    Stock.Took Stock.nowhere ids s₁ sp.stock

namespace Pending

/-- In the beginning the top block is not ahead. -/
theorem start (h : sp.Grows t₀ sp' t) (record : t.record = t₀.record)
    (children : t.children = t₀.children) (top : t₀.record.doubleIndirect ≠ 0) :
    Pending t₀ sp t sp' := by
  have content := (h.grows.sound.maps.top (by rwa [record])).2.2
  rw [record] at content
  refine ⟨h.sound, record, top, children ▸ content, ?_, t, sp'.stock, [], h.grows, record, .refl _⟩
  rw [Stock.put_self content]
  exact h.grows

theorem top_held (p : Pending t₀ sp₀ t sp) : sp.stock.Held t₀.record.doubleIndirect := by
  have top := p.top
  rw [← p.record] at top ⊢
  exact p.saved.sound.held _ (Tree.mem_sectors_blocks (Record.Maps.mem_blocks_top top))

theorem failures (p : Pending t₀ sp₀ t sp) : sp₀.stock.failures ≤ sp.stock.failures :=
  let ⟨_, took, _⟩ := p.saved.taken
  took.failures

/-- What had been taken by then is part of the tree in memory. -/
theorem halts (p : Pending t₀ sp₀ t sp) {n : Nat} {c : Fault} {unsaved : Prop}
    (h : sp.Halts unsaved n t c sp') : sp₀.Halts unsaved n t c sp' :=
  h.after ⟨p.saved.follows.own, p.saved.follows.bound, p.saved.follows.failures⟩ p.saved.unleaked

theorem rests (p : Pending t₀ sp₀ t sp) (sound : sp'.Sound)
    (took : Stock.Took Stock.nowhere [] sp.stock sp'.stock) : Pending t₀ sp₀ t sp' := by
  obtain ⟨t₁, s₁, ids, grows, record, took₁⟩ := p.unsaved
  refine ⟨sound, p.record, p.top, (took.content p.top_held id).trans p.behind, ?_, t₁, s₁, ids,
    grows, record, took₁.trans_nil took fun _ _ h => h⟩
  exact p.saved.trans (p.saved.sound.stays (took.put fun ne => absurd rfl ne))

/-- A new index block is hung below the top block in memory. -/
theorem hang (p : Pending t₀ sp₀ t sp) {child : SectorId}
    (obtains : Obtains Stock.nowhere sp [child] sp')
    (full : t.data.length = 140 + 128 * t.children.length) (lt : t.children.length < 128) :
    Pending t₀ sp₀ ⟨t.record, t.data, t.children ++ [child]⟩ sp' := by
  obtain ⟨t₁, s₁, ids, grows, record, took₁⟩ := p.unsaved
  have top : t.record.doubleIndirect ≠ 0 := by
    rw [p.record]
    exact p.top
  have mem := List.mem_singleton_self child
  have ne : child ≠ t₀.record.doubleIndirect := by
    rintro rfl
    exact p.top_held.2 (obtains.took.free _ mem)
  refine ⟨obtains.sound, p.record, p.top, (obtains.took.content p.top_held id).trans p.behind,
    p.saved.trans ?_, t₁, s₁, _, grows, record, took₁.trans obtains.took fun _ _ h => h⟩
  refine p.saved.sound.add_child p.sound.usable top ?_ ?_ full lt ?_
  · rw [p.record]
    exact (obtains.took.mono fun _ _ no => no.elim).put fun _ => rfl
  · rw [Stock.content_put_of_ne ne]
    exact obtains.zero child mem
  · rw [p.record]
    exact Stock.content_put ..

/-- The new index block is filled. -/
theorem fill (p : Pending t₀ sp₀ t sp) {k : Nat} {new : List SectorId}
    (hk : k + 1 = t.children.length) (hk' : k < t.children.length)
    (unsaved : ∃ t₁ s₁ ids, t₀.Grows sp₀.stock t₁ s₁ ∧ t₁.record = t₀.record ∧
      Stock.Took Stock.nowhere ids s₁ sp'.stock)
    (obtains : Obtains (· = t.children[k]) sp new sp')
    (le : t.data.length + new.length ≤ 140 + 128 * t.children.length)
    (content : sp'.stock.content t.children[k] =
      IndexBlock.sectorOf (Record.chunk t.data (140 + 128 * k) ++ new)) :
    Pending t₀ sp₀ ⟨t.record, t.data ++ new, t.children⟩ sp' := by
  have top : t.record.doubleIndirect ≠ 0 := by
    rw [p.record]
    exact p.top
  have ne : t.children[k] ≠ t₀.record.doubleIndirect := by
    rw [← p.record]
    intro e
    have nodup := p.saved.sound.nodup_blocks
    unfold Tree.blocks Record.blocks at nodup
    rw [if_neg top] at nodup
    exact (List.nodup_cons.1 nodup.of_append_right).1 (e ▸ List.getElem_mem hk')
  refine ⟨obtains.sound, p.record, p.top, (obtains.took.content p.top_held ne.symm).trans p.behind,
    p.saved.trans ?_, unsaved⟩
  refine p.saved.sound.append_child p.sound.usable hk hk'
    (obtains.took.put fun e => absurd rfl e) (fun id hid => ?_) le ?_
  · have ne' : id ≠ t₀.record.doubleIndirect := by
      rintro rfl
      exact p.top_held.2 (obtains.took.free _ hid)
    rw [Stock.content_put_of_ne ne']
    exact obtains.zero id hid
  · rw [Stock.content_put_of_ne ne]
    exact content

/-- Once the top block is written the tree is as long as it was in memory. -/
theorem written (p : Pending t₀ sp₀ t sp)
    (h : sp.Rewrites sp' (Function.update sp.stock.content t₀.record.doubleIndirect
      (IndexBlock.sectorOf t.children))) : sp₀.Grows t₀ sp' t :=
  ⟨h.sound, p.saved.trans (p.saved.sound.stays h.took_of_put)⟩

/-- As long as nothing is hung in, the tree is in the storage as it is. -/
theorem grows (p : Pending t₀ sp₀ t sp) (same : t.children = t₀.children) : sp₀.Grows t₀ sp t := by
  have saved := p.saved
  rw [same, Stock.put_self p.behind] at saved
  exact ⟨p.sound, saved⟩

/-- If the top block cannot be written, what is not reached from it is lost. -/
theorem lost (p : Pending t₀ sp₀ t sp) {n : Nat} {c : Fault} {unsaved : Prop} (h : sp.Fails c sp')
    (hu : unsaved) :
    ∃ t₁, t₁.record = t₀.record ∧ sp₀.Grows t₀ sp' t₁ ∧ sp₀.Halts unsaved n t₁ c sp' := by
  obtain ⟨t₁, s₁, ids, grows, record, took⟩ := p.unsaved
  refine ⟨t₁, record, ⟨h.1.sound, grows.trans (grows.sound.stays ?_)⟩,
    (h.2.trans p.failures).stopped, fun _ => .inr (.inl hu)⟩
  exact (took.trans_nil h.1.took fun _ _ h => h).lose (Nat.lt_of_le_of_lt took.failures h.2.2)

end Pending

/-- Index blocks are hung in one after the other, and each but the last one is filled. -/
theorem meets_growChildren (count : Nat) (p : Pending t₀ sp₀ t sp)
    (full : t.data.length = 140 + 128 * t.children.length)
    (le : t.children.length + count ≤ 128) {n : Nat}
    (some : 140 + 128 * (t.children.length + count) < n + 128) :
    Meets (Growth.growChildren (listed 128 t.children) t.children.length count) sp
      (fun r sp' => ∃ t', Pending t₀ sp₀ t' sp' ∧ r.1 = listed 128 t'.children ∧
        Tree.Thrifty n t t' ∧ match r.2 with
        | .ok () => t'.children.length = t.children.length + count
        | .error c => sp₀.Halts (Growth.ChildrenUnsaved count sp) n t' c sp')
      fun _ _ => False := by
  induction count generalizing t sp with
  | zero => exact meets_pure ⟨t, p, rfl, .refl n t, rfl⟩
  | succ count ih =>
    unfold Growth.growChildren
    refine Meets.bind (d := fun r sp₁ => match r with
      | .ok child => Obtains Stock.nowhere sp [child] sp₁ ∧ Growth.allocateOne sp = .ok child sp₁
      | .error c => sp.Refuses False 1 c sp₁)
      ((meets_allocateOne p.sound).run.attempt (fun _ _ h => h) fun _ _ h => h.1)
      (fun r sp₁ h₁ => ?_) fun _ _ h => h
    cases r with
    | error c =>
      exact meets_pure ⟨t, p.rests h₁.sound h₁.took, rfl, .refl n t,
        p.halts (h₁.halts (by omega) False.elim)⟩
    | ok child =>
      obtain ⟨h₁, began⟩ := h₁
      have thrifty := Tree.thrifty_child t (n := n) (by omega) child
      have hung := p.hang h₁ full (by omega)
      have length : (t.children ++ [child]).length = t.children.length + 1 := List.length_append
      simp only
      rw [setIfInBounds_listed]
      by_cases last : count = 0
      · rw [if_pos last]
        exact meets_pure ⟨_, hung, rfl, thrifty, by rw [last]; exact length⟩
      · rw [if_neg last]
        have mem := List.mem_singleton_self child
        have held : sp₁.stock.Held child := p.sound.held_of_took h₁.took child mem
        have empty : sp₁.stock.content child = IndexBlock.sectorOf [] := by
          rw [IndexBlock.sectorOf_nil]
          exact h₁.zero child mem
        refine Meets.bind (d := fun r sp₂ => match r with
          | .ok x => (∃ new, Reaches [] new (Fin.last 127) ∧ Obtains (· = child) sp₁ new sp₂ ∧
            sp₂.stock.content child = IndexBlock.sectorOf new) ∧
            Growth.ensureEntry child (Fin.last 127) sp₁ = .ok x sp₂
          | .error c => sp₁.Refuses (Growth.EntryUnsaved child (Fin.last 127) sp₁) 128 c sp₂)
          ((meets_ensureEntry h₁.sound held empty (fun id hid => (List.not_mem_nil hid).elim)
            (Fin.last 127)).run.attempt (fun _ sp₂ ⟨⟨new, _, reaches, obtains, content⟩, run⟩ =>
              ⟨⟨new, reaches, obtains, content⟩, run⟩) fun _ _ h => h.1.mono (Nat.sub_le ..) id)
          (fun r sp₂ h₂ => ?_) fun _ _ h => h
        cases r with
        | error c =>
          exact meets_pure ⟨_, hung.rests h₂.sound h₂.took, rfl, thrifty,
            hung.halts (h₂.halts (by show 128 ≤ n - t.data.length; omega) fun unsaved =>
              yields_of_ok began ⟨last, .inl unsaved⟩)⟩
        | ok x =>
          obtain ⟨⟨new, reaches, obtains, content⟩, complete⟩ := h₂
          have many : new.length = 128 := by
            rcases reaches with ⟨lt, -⟩ | ⟨-, e⟩
            · exact absurd lt (Nat.not_lt_zero _)
            · exact (Nat.zero_add _).symm.trans e
          have at_last : (t.children ++ [child])[t.children.length] = child :=
            List.getElem_concat_length rfl (by omega)
          have chunk : Record.chunk t.data (140 + 128 * t.children.length) = [] :=
            Record.chunk_of_length_le (Nat.le_of_eq full)
          obtain ⟨t₁, s₁, ids, grows, record, took₁⟩ := p.unsaved
          -- the new block was free before it was filled
          have taken : Stock.Took Stock.nowhere ([child] ++ new) sp.stock sp₂.stock :=
            h₁.took.trans obtains.took fun s kept e =>
              absurd kept (h₁.took.not_kept obtains.took (e ▸ mem))
          have filled : Pending t₀ sp₀ ⟨t.record, t.data ++ new, t.children ++ [child]⟩ sp₂ := by
            refine hung.fill (k := t.children.length) length.symm (by rw [length]; omega)
              ⟨t₁, s₁, _, grows, record, took₁.trans taken fun _ _ h => h⟩ ?_ ?_ ?_
            · rw [at_last]
              exact obtains
            · show t.data.length + new.length ≤ 140 + 128 * (t.children ++ [child]).length
              rw [length]
              omega
            · rw [at_last, chunk]
              exact content
          have full' : (t.data ++ new).length = 140 + 128 * (t.children ++ [child]).length := by
            rw [List.length_append, length]
            omega
          have next := ih filled full' (by rw [length]; omega) (by rw [length]; omega)
          rw [length] at next
          have filling : Tree.Thrifty n ⟨t.record, t.data, t.children ++ [child]⟩
              ⟨t.record, t.data ++ new, t.children ++ [child]⟩ :=
            Tree.thrifty_of_blocks rfl (by
              show (t.data ++ new).length ≤ _
              rw [full', length]
              omega)
          have thrifty := thrifty.trans filling
          refine next.mono (fun r sp₃ ⟨t', p', e, thrifty', outcome⟩ =>
            ⟨t', p', e, thrifty.trans thrifty', ?_⟩) fun _ _ h => h
          cases h : r.2 with
          | ok _ =>
            rw [h] at outcome
            exact outcome.trans (by omega)
          | error c =>
            rw [h] at outcome
            exact outcome.mono (Nat.le_refl n) fun unsaved =>
              yields_of_ok began ⟨last, .inr (yields_of_ok complete unsaved)⟩

/-- The index blocks up to entry `outer` are hung in, in memory. -/
theorem meets_growTop (h : sp.Sound) (ht : t.Sound sp.stock) (top : t.record.doubleIndirect ≠ 0)
    {outer : Nat} (behind : t.children.length ≤ outer) (lt : outer < 128) {n : Nat}
    (some : 140 + 128 * outer < n) :
    Meets (Growth.growTop (listed 128 t.children) t.children.length outer) sp
      (fun r sp' => ∃ t', Pending t sp t' sp' ∧ r.1 = listed 128 t'.children ∧
        Tree.Thrifty n t t' ∧ match r.2 with
        | .ok () => t'.children.length = outer + 1
        | .error c => sp.Halts
          (Growth.TopUnsaved (listed 128 t.children) t.children.length outer sp) n t' c sp')
      fun _ _ => False := by
  have reach := ht.maps.reach
  have far := (ht.maps.top top).2.1
  have more : ∀ {t₁ sp₁} {unsaved : Prop}, Pending t sp t₁ sp₁ → t₁.children = t.children →
      t₁.data.length = 140 + 128 * t.children.length → Tree.Thrifty n t t₁ →
      (Growth.ChildrenUnsaved (outer + 1 - t.children.length) sp₁ → unsaved) →
      Meets (Growth.growChildren (listed 128 t.children) t.children.length
          (outer + 1 - t.children.length)) sp₁
        (fun r sp' => ∃ t', Pending t sp t' sp' ∧ r.1 = listed 128 t'.children ∧
          Tree.Thrifty n t t' ∧ match r.2 with
          | .ok () => t'.children.length = outer + 1
          | .error c => sp.Halts unsaved n t' c sp')
        fun _ _ => False := by
    intro t₁ sp₁ unsaved p children full thrifty imp
    have grown := meets_growChildren (outer + 1 - t.children.length) p
      (by rw [children]; exact full) (by rw [children]; omega) (n := n) (by rw [children]; omega)
    rw [children] at grown
    refine grown.mono (fun r sp₂ ⟨t₂, p₂, e, thrifty₂, outcome⟩ =>
      ⟨t₂, p₂, e, thrifty.trans thrifty₂, ?_⟩) fun _ _ no => no
    cases h : r.2 with
    | ok _ =>
      rw [h] at outcome
      exact outcome.trans (by omega)
    | error c =>
      rw [h] at outcome
      exact outcome.mono (Nat.le_refl n) imp
  unfold Growth.growTop Growth.TopUnsaved
  simp only
  by_cases e : t.children.length = 0
  · rw [if_pos e, if_pos e, pure_bind]
    refine more (.start ⟨h, ht.refl⟩ rfl rfl top) rfl ?_ (.refl n t) id
    rw [e] at reach ⊢
    exact Nat.le_antisymm reach far
  · rw [if_neg e, if_neg e]
    -- the last index block there is gets full first
    have last : t.children.length - 1 < t.children.length := by omega
    have entry : (listed 128 t.children)[t.children.length - 1]?.getD 0 =
        t.children[t.children.length - 1] := by
      rw [Vector.getElem?_eq_getElem (by omega), getElem_listed, Option.getD_some,
        List.getD_eq_getElem _ _ last]
    rw [entry]
    refine Meets.bind (d := fun r sp₁ => match r with
      | .ok x => (∃ new, sp.Grows t sp₁ ⟨t.record, t.data ++ new, t.children⟩ ∧
          (t.data ++ new).length = 140 + 128 * t.children.length ∧
          Tree.Thrifty n t ⟨t.record, t.data ++ new, t.children⟩) ∧
          Growth.ensureEntry t.children[t.children.length - 1] (Fin.last 127) sp = .ok x sp₁
      | .error c => sp.Refuses
          (Growth.EntryUnsaved t.children[t.children.length - 1] (Fin.last 127) sp)
          (n - t.data.length) c sp₁)
      ((meets_ensureBelow h ht last (Fin.last 127)).run.attempt (fun x sp₁ h₁ => ?_) fun _ _ h =>
        h.1.mono (Nat.sub_le_sub_right (by show 140 + 128 * _ + 127 + 1 ≤ n; omega) _) id)
      (fun r sp₁ h₁ => ?_) fun _ _ h => h
    · obtain ⟨⟨new, grows, present, thrifty⟩, run⟩ := h₁
      obtain ⟨lt', -⟩ := List.getElem?_eq_some_iff.1 present
      have reach' := grows.grows.sound.maps.reach
      have e' : (Fin.last 127 : Nat) = 127 := rfl
      refine ⟨⟨new, grows, ?_, thrifty.mono (by omega)⟩, run⟩
      simp only at reach'
      omega
    · cases r with
      | error c =>
        have begun : Pending t sp t sp := .start ⟨h, ht.refl⟩ rfl rfl top
        exact meets_pure ⟨t, begun.rests h₁.sound h₁.took, rfl, .refl n t,
          h₁.halts (Nat.le_refl _) .inl⟩
      | ok _ =>
        obtain ⟨⟨new, grows, full, thrifty⟩, run⟩ := h₁
        exact more (.start grows rfl rfl top) rfl full thrifty fun unsaved =>
          .inr (yields_of_ok run unsaved)

end Space

end SectorVolume
