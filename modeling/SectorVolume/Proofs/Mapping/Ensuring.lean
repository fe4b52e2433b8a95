import SectorVolume.Proofs.Mapping.Growing

/-!
# The entry for a byte

What `Growth.ensure` does to the tree of a record: afterwards the data sector for the byte is there,
unless the byte lies past the greatest length. Each tier is begun only when the tree fills the one
before.
-/

namespace SectorVolume

open SectorVolume.Action

namespace Growth

/-- Takes one sector and fills it with zeros, which is noted. -/
def start (event : SectorId → Event) : Action Space SectorId := do
  let sector ← allocateOne
  Space.onStorage (Storage.note (event sector))
  return sector

/-- Making an entry of the first index block present gets as far as saving the block, and that
fails. -/
def IndirectUnsaved (i : Fin 128) (m : Mapping) : Prop :=
  if m.record.indirect = 0 then
    Yields (ensureDirect (Fin.last 11)) m fun _ m =>
      Yields (start .indirectAllocated) m.space fun sector sp => EntryUnsaved sector i sp
  else EntryUnsaved m.record.indirect i m.space

/-- A top block was grown in memory. Index blocks were hung in and saving it fails, or saving the
index block below it in which an entry is to be made present. -/
def GrownUnsaved (sector : SectorId) (top : IndexBlock) (outer inner : Fin 128)
    (grown : IndexBlock × Except Fault Unit) (sp : Space) : Prop :=
  (grown.1 ≠ top ∧
    ¬ Yields (Space.onStorage (IndexBlock.save sector grown.1)) sp fun _ _ => True) ∨
    Yields (Space.onStorage (IndexBlock.save sector grown.1)) sp fun _ sp =>
      grown.2 = .ok () ∧ EntryUnsaved (grown.1.get outer) inner sp

/-- Making an entry below a top block present gets as far as saving the top block or one below it,
and that fails. -/
def BelowUnsaved (sector : SectorId) (outer inner : Fin 128) (sp : Space) : Prop :=
  Yields (Space.onStorage (IndexBlock.load sector)) sp fun top sp =>
    if top.get outer ≠ 0 then EntryUnsaved (top.get outer) inner sp
    else
      TopUnsaved top (firstMissing top outer) outer sp ∨
        Yields (growTop top (firstMissing top outer) outer) sp
          (GrownUnsaved sector top outer inner)

/-- Making an entry below the top block present gets as far as saving an index block, and that
fails. -/
def DoubleUnsaved (outer inner : Fin 128) (m : Mapping) : Prop :=
  if m.record.doubleIndirect = 0 then
    IndirectUnsaved (Fin.last 127) m ∨ Yields (ensureIndirect (Fin.last 127)) m fun _ m =>
      Yields (start .doubleIndirectAllocated) m.space fun sector sp => BelowUnsaved sector outer inner sp
  else BelowUnsaved m.record.doubleIndirect outer inner m.space

/-- Making byte `offset` writable gets as far as saving an index block, and that fails. -/
def Unsaved (offset : Nat) (m : Mapping) : Prop :=
  match locate offset with
  | none => False
  | some (.direct _) => False
  | some (.indirect i) => IndirectUnsaved i m
  | some (.double outer inner) => DoubleUnsaved outer inner m

end Growth

namespace Mapping

variable {m m' : Mapping} {t t' : Tree} {α : Type}

theorem onSpace_of_error {x : Action Space α} {sp sp' : Space} {e : Failure}
    (run : x sp = .error e sp') (r : Record) : onSpace x ⟨sp, r⟩ = .error e ⟨sp', r⟩ := by
  unfold onSpace
  simp only [run]

theorem ends_onSpace {x : Action Space α} {d : α → Space → Prop} {f : Failure → Space → Prop}
    (hx : Ends x m.space d f) :
    Ends (onSpace x) m (fun a m' => d a m'.space ∧ m'.record = m.record)
      fun e m' => f e m'.space ∧ m'.record = m.record := by
  obtain ⟨space, record⟩ := m
  unfold Ends onSpace at *
  simp only at hx ⊢
  cases e : x space with
  | ok | error =>
    rw [e] at hx
    exact ⟨hx, rfl⟩

theorem meets_onSpace {x : Action Space α} {d : α → Space → Prop} {f : Fault → Space → Prop}
    (hx : Meets x m.space d f) :
    Meets (onSpace x) m (fun a m' => d a m'.space ∧ m'.record = m.record)
      fun c m' => f c m'.space ∧ m'.record = m.record :=
  Meets.of_ends (ends_onSpace hx.ends) fun _ _ ⟨⟨c, e, hc⟩, record⟩ => ⟨c, e, hc, record⟩

variable [Promise]

/-- The space is sound, and `t` is the tree of the record. -/
structure Sound (m : Mapping) (t : Tree) : Prop where
  space : m.space.Sound
  record : t.record = m.record
  tree : t.Sound m.space.stock

/-- Afterwards `t'` is the tree of the record. -/
structure Grows (m : Mapping) (t : Tree) (m' : Mapping) (t' : Tree) : Prop where
  sound : m'.Sound t'
  grows : t.Grows m.space.stock t' m'.space.stock

/-- There were too few free sectors for `n` data sectors, or a transfer failed. The tree grew up to
there. -/
def Stops (unsaved : Prop) (n : Nat) (m : Mapping) (t : Tree) (c : Fault) (m' : Mapping) : Prop :=
  ∃ t', m.Grows t m' t' ∧ m.space.Halts unsaved n t' c m'.space

theorem Grows.trans {m'' : Mapping} {t'' : Tree} (h : m.Grows t m' t') (h' : m'.Grows t' m'' t'') :
    m.Grows t m'' t'' := ⟨h'.sound, h.grows.trans h'.grows⟩

theorem Grows.failures (h : m.Grows t m' t') :
    m.space.stock.failures ≤ m'.space.stock.failures :=
  let ⟨_, took, _⟩ := h.grows.taken
  took.failures

variable {n : Nat} {c : Fault} {unsaved unsaved' : Prop}

theorem Grows.space (h : m.Grows t m' t') : m.space.Grows t m'.space t' := ⟨h.sound.space, h.grows⟩

theorem Grows.stops {m'' : Mapping} (h : m.Grows t m' t') (h' : m'.Stops unsaved n t' c m'') :
    m.Stops unsaved n t c m'' :=
  let ⟨t'', grows, halts⟩ := h'
  ⟨t'', h.trans grows, h.space.halts grows.grows.subset halts⟩

theorem Stops.mono {n' : Nat} (h : m.Stops unsaved n t c m') (le : n ≤ n')
    (imp : unsaved → unsaved') : m.Stops unsaved' n' t c m' :=
  let ⟨t', grows, halts⟩ := h
  ⟨t', grows, halts.mono le imp⟩

theorem Sound.refl (h : m.Sound t) : m.Grows t m t := ⟨h, h.tree.refl⟩

/-- A growth of the tree in the space, with the record as the tree has it. -/
theorem grows_of_space (h : m.space.Grows t m'.space t') (record : t'.record = m'.record) :
    m.Grows t m' t' := ⟨⟨h.sound, record, h.grows.sound⟩, h.grows⟩

theorem Sound.stops (h : m.Sound t) {limit : Nat} (h' : m.space.Refuses unsaved limit c m'.space)
    (le : limit ≤ n - t.data.length) (imp : unsaved → unsaved') (record : m'.record = m.record) :
    m.Stops unsaved' n t c m' :=
  ⟨t, grows_of_space (h'.grows h.tree) (h.record.trans record.symm), h'.halts le imp⟩

/-- One sector is taken and becomes part of the record, which is noted. -/
theorem meets_begin {f : SectorId → Record → Record} {event : SectorId → Event}
    {k : SectorId → Tree} (h : m.Sound t) (more : t.data.length < n)
    (grows : ∀ s sp, Space.Obtains Stock.nowhere m.space [s] sp →
      t.Grows m.space.stock (k s) sp.stock)
    (record : ∀ s, (k s).record = f s m.record)
    {rest : Action Mapping α} {D : α → Mapping → Prop} {F : Fault → Mapping → Prop}
    (hrest : ∀ s m', s ≠ 0 → Growth.start event m.space = .ok s m'.space → m.Grows t m' (k s) →
      m'.record = f s m.record → Meets rest m' D F)
    (hF : ∀ c m', m.Stops False n t c m' → F c m') :
    Meets (do
      let sector ← onSpace Growth.allocateOne
      modifyRecord (f sector)
      onSpace (Space.onStorage (Storage.note (event sector)))
      rest) m D F := by
  refine (meets_onSpace (Space.meets_allocateOne h.space).run).bind (fun s m₁ h₁ => ?_)
    fun c m₁ h₁ => hF c m₁ (h.stops h₁.1.1 (by omega) id h₁.2)
  obtain ⟨⟨obtains, took⟩, record₁⟩ := h₁
  have grown := grows s _ obtains
  have nonzero := (h.space.usable s (obtains.took.free s (List.mem_singleton_self s))).1
  refine meets_modify ?_
  refine (meets_onSpace (m := ⟨m₁.space, f s m₁.record⟩)
    (Space.meets_note obtains.sound (event s) (f := fun _ _ => False)).run).bind
    (fun _ m₂ h₂ => ?_) fun _ _ no => no.1.1.elim
  obtain ⟨⟨rests, noted⟩, record₂⟩ := h₂
  have record₂' : m₂.record = f s m.record := by rw [record₂, ← record₁]
  refine hrest s m₂ nonzero ?_ (grows_of_space ⟨rests.sound, ?_⟩ ((record s).trans record₂'.symm))
    record₂'
  · exact run_bind took (run_bind noted rfl)
  · exact grown.trans (grown.sound.stays rests.took)

/-! ## The three tiers -/

/-- An entry of the record. -/
theorem meets_ensureDirect (h : m.Sound t) (i : Fin 12) :
    Meets (Growth.ensureDirect i) m
      (fun x m' => ∃ t', m.Grows t m' t' ∧ t'.data[i.val]? = some x ∧
        Tree.Thrifty (i.val + 1) t t' ∧ m'.record.indirect = m.record.indirect ∧
        m'.record.doubleIndirect = m.record.doubleIndirect)
      (m.Stops False (i.val + 1) t) := by
  have hi := i.isLt
  have direct : m.record.direct = listed 12 (t.data.take 12) := by
    rw [← h.record]
    exact h.tree.maps.direct
  have nonzero : ∀ id ∈ t.data.take 12, id ≠ 0 :=
    fun id hid => h.tree.maps.nonzero_data id (List.mem_of_mem_take hid)
  unfold Growth.ensureDirect
  refine meets_get ?_
  rw [direct]
  have length : (t.data.take 12).length = min 12 t.data.length := List.length_take
  refine (meets_onSpace (Space.meets_backfill (by decide) h.space nonzero i)).bind (fun entries m₁ h₁ => ?_)
    fun c m₁ h₁ => h.stops h₁.1 (by omega) id h₁.2
  obtain ⟨⟨new, rfl, reaches, obtains⟩, record⟩ := h₁
  refine meets_modify (meets_pure ?_)
  have present : (t.data.take 12 ++ new)[i.val]? = some ((t.data.take 12 ++ new).getD i.val 0) := by
    rw [List.getD_eq_getElem _ _ reaches.lt, List.getElem?_eq_getElem reaches.lt]
  rw [get_listed]
  simp only
  rcases reaches with ⟨lt, rfl⟩ | ⟨le, e⟩
  · rw [List.append_nil] at present ⊢
    rw [List.getElem?_take_of_lt hi] at present
    refine ⟨t, grows_of_space ⟨obtains.sound, h.tree.stays obtains.took⟩ ?_, present, .refl _ t,
      ?_, ?_⟩
    · rw [h.record, record, ← direct]
    · rw [record]
    · rw [record]
  · rw [List.length_take] at le e
    have all : t.data.take 12 = t.data := List.take_of_length_le (by omega)
    have first : t.record.indirect = 0 := by
      by_contra ne
      have := (h.tree.maps.first ne).1
      omega
    rw [all] at present ⊢
    refine ⟨_, grows_of_space ⟨obtains.sound, h.tree.append_direct h.space.usable first
      obtains.took obtains.zero (by omega)⟩ ?_, present, Tree.thrifty_of_blocks rfl ?_, ?_, ?_⟩
    · rw [h.record, record]
    · show (t.data ++ new).length ≤ _
      rw [List.length_append]
      omega
    · rw [record]
    · rw [record]

/-- An entry of the first index block, which is there. -/
theorem meets_ensureFirst (h : m.Sound t) (e : m.record.indirect ≠ 0) (i : Fin 128) :
    Meets (onSpace (Growth.ensureEntry m.record.indirect i)) m
      (fun x m' => ∃ t', m.Grows t m' t' ∧ t'.data[12 + i.val]? = some x ∧
        Tree.Thrifty (12 + i.val + 1) t t' ∧ m'.record.doubleIndirect = m.record.doubleIndirect)
      (m.Stops (Growth.EntryUnsaved m.record.indirect i m.space) (12 + i.val + 1) t) := by
  have e' := e
  rw [← h.record] at e' ⊢
  refine (meets_onSpace (Space.meets_ensureFirst h.space h.tree e' i)).mono
    (fun x m₁ h₁ => ?_) fun c m₁ h₁ => h.stops h₁.1 (Nat.le_refl _) id h₁.2
  obtain ⟨⟨new, grows, entry, thrifty⟩, record⟩ := h₁
  exact ⟨_, grows_of_space grows (h.record.trans record.symm), entry, thrifty,
    by rw [record, h.record]⟩

/-- An entry of the first index block. -/
theorem meets_ensureIndirect (h : m.Sound t) (i : Fin 128) :
    Meets (Growth.ensureIndirect i) m
      (fun x m' => ∃ t', m.Grows t m' t' ∧ t'.data[12 + i.val]? = some x ∧
        Tree.Thrifty (12 + i.val + 1) t t' ∧ m'.record.doubleIndirect = m.record.doubleIndirect)
      (m.Stops (Growth.IndirectUnsaved i m) (12 + i.val + 1) t) := by
  unfold Growth.ensureIndirect Growth.IndirectUnsaved
  refine meets_get ?_
  simp only
  by_cases e : m.record.indirect = 0
  · rw [if_pos e, if_pos e]
    have last : (Fin.last 11 : Nat) + 1 ≤ 12 + i.val + 1 := Nat.le_add_right 12 (i.val + 1)
    refine (meets_ensureDirect h (Fin.last 11)).run.bind (fun x m₁ h₁ => ?_)
      fun _ _ h => h.1.mono last False.elim
    obtain ⟨⟨t₁, grows, entry, thrifty, indirect, top⟩, direct⟩ := h₁
    have none : t₁.record.indirect = 0 := by
      rw [grows.sound.record, indirect, e]
    have full : t₁.data.length = 12 := by
      obtain ⟨lt, -⟩ := List.getElem?_eq_some_iff.1 entry
      have e' : (Fin.last 11 : Nat) = 11 := rfl
      have := grows.sound.tree.maps.noFirst none
      omega
    refine meets_begin (f := fun s r => { r with indirect := s }) grows.sound (by omega)
      (fun s sp obtains => grows.sound.tree.begin_first grows.sound.space.usable none
        obtains.took (obtains.zero s (List.mem_singleton_self s)) full)
      (fun s => by rw [grows.sound.record]) (fun s m₂ nonzero began grows₂ record₂ => ?_)
      fun c m₂ h₂ => (grows.stops h₂).mono (Nat.le_refl _) False.elim
    refine meets_get ?_
    have here : m₂.record.indirect = s := by rw [record₂]
    have present : m₂.record.indirect ≠ 0 := here ▸ nonzero
    refine (meets_ensureFirst grows₂.sound present i).mono (fun x m₃ h₃ => ?_)
      fun c m₃ h₃ => (grows.stops (grows₂.stops h₃)).mono (Nat.le_refl _) fun unsaved =>
        yields_of_ok direct (yields_of_ok began (here ▸ unsaved))
    obtain ⟨t₃, grows₃, entry₃, thrifty₃, top₃⟩ := h₃
    have begun := grows.sound.tree.thrifty_first none (n := 12 + i.val + 1) (by omega) s
    exact ⟨t₃, grows.trans (grows₂.trans grows₃), entry₃,
      (thrifty.mono last).trans (begun.trans thrifty₃), by rw [top₃, record₂, top]⟩
  · rw [if_neg e, if_neg e]
    exact meets_get (meets_ensureFirst h e i)

/-- An entry below the top block, which is there. -/
theorem meets_ensureTop (h : m.Sound t) (e : m.record.doubleIndirect ≠ 0) (outer inner : Fin 128) :
    Meets (do
      let sector := (← get).record.doubleIndirect
      let top ← onSpace (IndexBlock.load sector)
      if top.get outer ≠ 0 then onSpace (Growth.ensureEntry (top.get outer) inner)
      else
        let (top, grown) ← onSpace (Growth.growTop top (Growth.firstMissing top outer) outer)
        onSpace (IndexBlock.save sector top)
        Action.resume grown
        onSpace (Growth.ensureEntry (top.get outer) inner)) m
      (fun x m' => ∃ t', m.Grows t m' t' ∧ t'.data[140 + 128 * outer.val + inner.val]? = some x ∧
        Tree.Thrifty (140 + 128 * outer.val + inner.val + 1) t t')
      (m.Stops (Growth.BelowUnsaved m.record.doubleIndirect outer inner m.space)
        (140 + 128 * outer.val + inner.val + 1) t) := by
  have e' := e
  rw [← h.record] at e'
  have content := (h.tree.maps.top e').2.2
  have nonzero := h.tree.maps.nonzero_children
  have width := h.tree.maps.width
  have child : ∀ (m₁ : Mapping) (t₁ : Tree), m.Grows t m₁ t₁ →
      Tree.Thrifty (140 + 128 * outer.val + inner.val + 1) t t₁ →
      ∀ lt : outer.val < t₁.children.length,
      Meets (onSpace (Growth.ensureEntry (t₁.children.getD outer.val 0) inner)) m₁
        (fun x m' => ∃ t', m.Grows t m' t' ∧
          t'.data[140 + 128 * outer.val + inner.val]? = some x ∧
          Tree.Thrifty (140 + 128 * outer.val + inner.val + 1) t t')
        (m.Stops (Growth.EntryUnsaved (t₁.children.getD outer.val 0) inner m₁.space)
          (140 + 128 * outer.val + inner.val + 1) t) := by
    intro m₁ t₁ grows thrifty lt
    rw [List.getD_eq_getElem _ _ lt]
    have sound := grows.sound
    refine (meets_onSpace (Space.meets_ensureBelow sound.space sound.tree lt inner)).mono
      (fun x m₂ h₂ => ?_) fun c m₂ h₂ => grows.stops (sound.stops h₂.1 (Nat.le_refl _) id h₂.2)
    obtain ⟨⟨new, grows₂, present, thrifty₂⟩, record⟩ := h₂
    exact ⟨_, grows.trans (grows_of_space grows₂ (sound.record.trans record.symm)), present,
      thrifty.trans thrifty₂⟩
  have usable : m.space.stock.Usable m.record.doubleIndirect := by
    rw [← h.record]
    exact (h.tree.held _ (Tree.mem_sectors_blocks (Record.Maps.mem_blocks_top e'))).1
  refine meets_get ?_
  refine (meets_onSpace (Space.meets_load h.space usable).run).bind (fun block m₁ h₁ => ?_)
    fun c m₁ h₁ => h.stops h₁.1.1.refuses (Nat.zero_le _) False.elim h₁.2
  obtain ⟨⟨⟨rfl, rests⟩, loaded⟩, record⟩ := h₁
  rw [← h.record, content, IndexBlock.ofSector_sectorOf] at loaded ⊢
  rw [get_listed]
  have grows₁ : m.Grows t m₁ t :=
    grows_of_space (Space.Rests.grows rests h.tree) (h.record.trans record.symm)
  by_cases lt : outer.val < t.children.length
  · have there := (getD_ne_zero_iff nonzero).2 lt
    rw [if_pos there]
    refine (child m₁ t grows₁ (.refl _ t) lt).mono (fun _ _ h => h) fun _ _ h =>
      h.mono (Nat.le_refl _) fun unsaved => yields_of_ok loaded ?_
    rw [get_listed, if_pos there]
    exact unsaved
  · have absent : ¬ t.children.getD outer.val 0 ≠ 0 := fun ne =>
      lt ((getD_ne_zero_iff nonzero).1 ne)
    have first := firstMissing_listed nonzero (Nat.le_of_not_lt lt) (Nat.le_of_lt outer.isLt)
    have below : Growth.TopUnsaved (listed 128 t.children) t.children.length outer m₁.space ∨
        Yields (Growth.growTop (listed 128 t.children) t.children.length outer) m₁.space
          (Growth.GrownUnsaved t.record.doubleIndirect (listed 128 t.children) outer inner) →
        Growth.BelowUnsaved t.record.doubleIndirect outer inner m.space := by
      intro unsaved
      refine yields_of_ok loaded ?_
      rw [get_listed, if_neg absent, first]
      exact unsaved
    rw [if_neg absent, first]
    refine (meets_onSpace (Space.meets_growTop grows₁.sound.space grows₁.sound.tree e'
      (by omega) outer.isLt (n := 140 + 128 * outer.val + inner.val + 1) (by omega)).run).bind
      (fun r m₂ h₂ => ?_) fun _ _ no => no.1.1.elim
    obtain ⟨⟨⟨t₂, pending, top, thrifty, outcome⟩, grew⟩, record₂⟩ := h₂
    obtain ⟨block, grown⟩ := r
    obtain rfl : block = listed 128 t₂.children := top
    refine (meets_onSpace (Space.meets_save pending.sound pending.top_held.1
      t₂.children).run).bind (fun _ m₃ h₃ => ?_) fun c m₃ h₃ => ?_
    · obtain ⟨⟨rewrites, saved⟩, record₃⟩ := h₃
      have grows₃ : m.Grows t m₃ t₂ := grows₁.trans <|
        grows_of_space (pending.written rewrites)
          (by rw [pending.record, h.record, record₃, record₂, record])
      refine Meets.bind (d := fun _ m' => m' = m₃ ∧ grown = .ok ())
        (f := fun c m' => m' = m₃ ∧ grown = .error c)
        (meets_resume (fun _ e => ⟨rfl, e⟩) fun _ e => ⟨rfl, e⟩) (fun _ m' h' => ?_)
        fun c m' h' => ?_
      · obtain ⟨rfl, rfl⟩ := h'
        rw [get_listed]
        refine (child m' t₂ grows₃ thrifty (by rw [outcome]; exact Nat.lt_succ_self _)).mono
          (fun _ _ h => h) fun _ _ h => h.mono (Nat.le_refl _) fun unsaved =>
            below (.inr (yields_of_ok grew (.inr (yields_of_ok saved ⟨rfl, ?_⟩))))
        rw [get_listed]
        exact unsaved
      · obtain ⟨rfl, rfl⟩ := h'
        have halts := grows₁.space.halts pending.saved.subset (outcome.rewrites rewrites)
        exact ⟨t₂, grows₃, halts.mono (Nat.le_refl _) fun unsaved => below (.inl unsaved)⟩
    · obtain ⟨⟨fails, run⟩, record₃⟩ := h₃
      by_cases same : t₂.children = t.children
      · -- nothing was hung in, so nothing depends on the top block being saved
        have grows₂ : m.Grows t m₂ t₂ := grows₁.trans <|
          grows_of_space (pending.grows same) (by rw [pending.record, h.record, record₂, record])
        exact grows₂.stops (grows₂.sound.stops fails.refuses (Nat.zero_le _) False.elim record₃)
      · have grown : listed 128 t₂.children ≠ listed 128 t.children := fun e =>
          same <| listed_injective pending.saved.sound.maps.nonzero_children nonzero
            pending.saved.sound.maps.width width e
        obtain ⟨t₃, record', grows₃, halts⟩ := pending.lost fails
          (below (.inr (yields_of_ok grew (.inl ⟨grown, not_yields_of_error run⟩))))
        refine grows₁.stops ⟨t₃, grows_of_space grows₃ ?_, halts⟩
        rw [record', h.record, record₃, record₂, record]

/-- An entry below the top block. -/
theorem meets_ensureDouble (h : m.Sound t) (outer inner : Fin 128) :
    Meets (Growth.ensureDouble outer inner) m
      (fun x m' => ∃ t', m.Grows t m' t' ∧ t'.data[140 + 128 * outer.val + inner.val]? = some x ∧
        Tree.Thrifty (140 + 128 * outer.val + inner.val + 1) t t')
      (m.Stops (Growth.DoubleUnsaved outer inner m) (140 + 128 * outer.val + inner.val + 1) t) := by
  unfold Growth.ensureDouble Growth.DoubleUnsaved
  refine meets_get ?_
  simp only
  by_cases e : m.record.doubleIndirect = 0
  · rw [if_pos e, if_pos e]
    have last : 12 + (Fin.last 127 : Nat) + 1 ≤ 140 + 128 * outer.val + inner.val + 1 := by
      show 140 ≤ _
      omega
    refine (meets_ensureIndirect h (Fin.last 127)).run.bind (fun x m₁ h₁ => ?_)
      fun _ _ h => h.1.mono last .inl
    obtain ⟨⟨t₁, grows, entry, thrifty, top⟩, filled⟩ := h₁
    have none : t₁.record.doubleIndirect = 0 := by
      rw [grows.sound.record, top, e]
    have maps := grows.sound.tree.maps
    have full : t₁.data.length = 140 := by
      obtain ⟨lt, -⟩ := List.getElem?_eq_some_iff.1 entry
      have e' : (Fin.last 127 : Nat) = 127 := rfl
      have reach := maps.reach
      rw [maps.noTop none, List.length_nil] at reach
      omega
    have first : t₁.record.indirect ≠ 0 := by
      intro e'
      have := maps.noFirst e'
      omega
    refine meets_begin (f := fun s r => { r with doubleIndirect := s }) grows.sound (by omega)
      (fun s sp obtains => grows.sound.tree.begin_top grows.sound.space.usable first none
        obtains.took (obtains.zero s (List.mem_singleton_self s)) full)
      (fun s => by rw [grows.sound.record]) (fun s m₂ nonzero began grows₂ record₂ => ?_)
      fun c m₂ h₂ => (grows.stops h₂).mono (Nat.le_refl _) False.elim
    have here : m₂.record.doubleIndirect = s := by rw [record₂]
    have present : m₂.record.doubleIndirect ≠ 0 := here ▸ nonzero
    refine (meets_ensureTop grows₂.sound present outer inner).mono (fun x m₃ h₃ => ?_)
      fun c m₃ h₃ => (grows.stops (grows₂.stops h₃)).mono (Nat.le_refl _) fun unsaved =>
        .inr (yields_of_ok filled (yields_of_ok began (here ▸ unsaved)))
    obtain ⟨t₃, grows₃, entry₃, thrifty₃⟩ := h₃
    have begun := grows.sound.tree.thrifty_top none
      (n := 140 + 128 * outer.val + inner.val + 1) (by omega) s
    exact ⟨t₃, grows.trans (grows₂.trans grows₃), entry₃,
      (thrifty.mono last).trans (begun.trans thrifty₃)⟩
  · rw [if_neg e, if_neg e]
    exact meets_ensureTop h e outer inner

/-- Afterwards the data sector for the byte is there, if there can be one, and nothing that it does
not need. -/
theorem meets_ensure (h : m.Sound t) (offset : Nat) :
    Meets (Growth.ensure offset) m
      (fun x m' => ∃ t', m.Grows t m' t' ∧ x = t'.data[offset / 512]? ∧
        (offset < maxFileSize → offset / 512 < t'.data.length) ∧
        Tree.Thrifty (offset / 512 + 1) t t')
      (m.Stops (Growth.Unsaved offset m) (offset / 512 + 1) t) := by
  unfold Growth.ensure Growth.Unsaved
  cases e : locate offset with
  | none =>
    have far : ¬ offset < maxFileSize := fun lt => by
      have := locate_isSome_iff.2 lt
      rw [e] at this
      cases this
    have e' : maxFileSize = 16524 * 512 := rfl
    have length := h.tree.data_length_le
    exact meets_pure ⟨t, h.refl, (List.getElem?_eq_none (by omega)).symm, fun lt => absurd lt far,
      .refl _ t⟩
  | some p =>
    have index : p.index = offset / 512 := Position.index_of_ofIndex e
    have found : ∀ {x : SectorId} {m' : Mapping}, (∃ t', m.Grows t m' t' ∧
        t'.data[offset / 512]? = some x ∧ Tree.Thrifty (offset / 512 + 1) t t') →
        ∃ t', m.Grows t m' t' ∧ some x = t'.data[offset / 512]? ∧
          (offset < maxFileSize → offset / 512 < t'.data.length) ∧
          Tree.Thrifty (offset / 512 + 1) t t' :=
      fun ⟨t', grows, entry, thrifty⟩ =>
        ⟨t', grows, entry.symm, fun _ => (List.getElem?_eq_some_iff.1 entry).1, thrifty⟩
    rw [← index] at found ⊢
    cases p with
    | direct i =>
      refine (meets_ensureDirect h i).bind (fun x m₁ h₁ => meets_pure ?_) fun _ _ h => h
      obtain ⟨t₁, grows, entry, thrifty, -⟩ := h₁
      exact found ⟨t₁, grows, entry, thrifty⟩
    | indirect i =>
      refine (meets_ensureIndirect h i).bind (fun x m₁ h₁ => meets_pure ?_) fun _ _ h => h
      obtain ⟨t₁, grows, entry, thrifty, -⟩ := h₁
      exact found ⟨t₁, grows, entry, thrifty⟩
    | double outer inner =>
      refine (meets_ensureDouble h outer inner).bind (fun x m₁ h₁ => meets_pure ?_)
        fun _ _ h => h
      exact found h₁

end Mapping

end SectorVolume
