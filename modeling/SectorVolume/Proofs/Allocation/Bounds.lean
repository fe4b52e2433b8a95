import SectorVolume.Proofs.Allocation.Releasing

/-!
# Which sectors a bitmap hands out

A clear bit is there from the time the bitmap was set up, or it was cleared by a release. So what is
handed out lies between the reserved sectors and the last one that is managed, or it was given back
before, whether or not it had been handed out. Ids are 32-bit words: the id of a bit is its position
cut down to that.

Nothing is asked of the bitmap here. It may be larger than there are ids, and an operation may end in
any way.
-/

namespace SectorVolume

namespace FreeMap

open SectorVolume.Action Storage

variable {m : FreeMap} {A : SectorId → Prop} {st st' : Storage} {L : SectorId → Sector}

/-- Each clear bit has an id with `A`. -/
def Confined (m : FreeMap) (A : SectorId → Prop) (L : SectorId → Sector) : Prop :=
  ∀ i < m.sectors, ∀ b : Fin 4096, (L (m.block i)).bit b = false →
    A (UInt32.ofNat (i * 4096 + b.val))

/-- The storage is intact, and each clear bit has an id with `A`. -/
structure Bounded (m : FreeMap) (A : SectorId → Prop) (st : Storage) : Prop where
  intact : st.Intact
  confined : m.Confined A st.logical

theorem Bounded.same (h : m.Bounded A st) {w : Prop} {n : Nat} (same : Same w n [] st st') :
    m.Bounded A st' := ⟨same.good.intact, same.logical.symm ▸ h.confined⟩

theorem Bounded.mono {B : SectorId → Prop} (h : m.Bounded A st) (le : ∀ id, A id → B id) :
    m.Bounded B st := ⟨h.intact, fun i hi b clear => le _ (h.confined i hi b clear)⟩

/-! ## Sectors and ids -/

theorem ends_sectorAt (m : FreeMap) (i : Nat) (st : Storage) :
    Ends (m.sectorAt i) st (fun s st' => s = m.block i ∧ st' = st) fun _ st' => st' = st := by
  unfold sectorAt
  simp only
  split
  · refine ends_pure ⟨UInt32.toNat_inj.1 ?_, rfl⟩
    have e : wordRange32 = 2 ^ 32 := rfl
    rw [block, UInt32.toNat_ofNat', UInt32.toNat_ofNat', e, Nat.add_mod_mod]
  · exact ends_throw rfl

/-- Bits at the same place of the same sector have the same id. -/
theorem id_eq_of_block_eq {i j : Nat} (e : m.block i = m.block j) (b : Nat) :
    UInt32.ofNat (i * 4096 + b) = UInt32.ofNat (j * 4096 + b) := by
  have e := congrArg UInt32.toNat e
  unfold block at e
  refine UInt32.toNat_inj.1 ?_
  rw [UInt32.toNat_ofNat', UInt32.toNat_ofNat'] at e ⊢
  omega

/-- One sector is replaced. -/
theorem Confined.update (h : m.Confined A L) {i : Nat} {s : Sector}
    (clear : ∀ b, s.bit b = false →
      (L (m.block i)).bit b = false ∨ A (UInt32.ofNat (i * 4096 + b.val))) :
    m.Confined A (Function.update L (m.block i) s) := by
  intro j hj b bit
  by_cases e : m.block j = m.block i
  · rw [e, Function.update_self] at bit
    rcases clear b bit with before | new
    · exact h j hj b (e ▸ before)
    · rwa [id_eq_of_block_eq e]
  · rw [Function.update_of_ne e] at bit
    exact h j hj b bit

/-! ## Operations -/

theorem Bounded.ends_takeFrom (h : m.Bounded A st) (i count : Nat) (inside : i + count ≤ m.sectors) :
    Ends (m.takeFrom i count) st (fun r st' => m.Bounded A st' ∧ ∀ id, r = some id → A id)
      fun _ st' => m.Bounded A st' := by
  induction count generalizing i st with
  | zero => exact ends_pure ⟨h, nofun⟩
  | succ count ih =>
    unfold takeFrom
    refine (m.ends_sectorAt i st).bind (fun s st₁ h₁ => ?_) fun _ _ same => same ▸ h
    obtain ⟨rfl, rfl⟩ := h₁
    refine (ends_readSector h.intact (m.block i).toNat_lt).bind (fun s st₂ h₂ => ?_)
      fun _ _ stops => h.same stops.2
    obtain ⟨same, rfl⟩ := h₂
    cases e : (st₁.logical (m.block i)).firstClear with
    | none => exact ih (h.same same) (i + 1) (by omega)
    | some b =>
      obtain ⟨clear, -⟩ := Sector.bit_of_firstClear_eq_some e
      refine (ends_modifySector same.good (m.block i).toNat_lt _).bind (fun _ st₃ h₃ => ?_)
        fun _ _ halts => h.same (same.trans halts.same)
      obtain ⟨s', set, changed⟩ := h₃
      cases set
      have bounded : m.Bounded A st₃ := by
        refine ⟨changed.good, ?_⟩
        rw [changed.logical, same.logical]
        -- a bit that is clear now was clear before
        refine h.confined.update fun b' bit => .inl ?_
        rw [Sector.bit_setBit, Bool.or_eq_false_iff] at bit
        exact bit.1
      refine ends_pure ⟨bounded, fun id taken => ?_⟩
      cases taken
      exact h.confined i (by omega) b clear

/-- A sector that is given back needs an id with `A`, and nothing else. -/
theorem preserves_giveBack {id : SectorId} (hid : A id) :
    Preserves (m.Bounded A) (m.giveBack id) := by
  intro st h
  unfold giveBack
  simp only
  split
  · exact ends_violate_bind h
  refine (m.ends_sectorAt _ st).bind (fun s st₁ h₁ => ?_) fun _ _ same => same ▸ h
  obtain ⟨rfl, rfl⟩ := h₁
  refine (ends_modifySector h.intact (m.block _).toNat_lt _).mono (fun _ st₂ h₂ => ?_)
    fun _ _ halts => h.same halts.same
  obtain ⟨s', cleared, changed⟩ := h₂
  split at cleared
  · cases cleared
    refine ⟨changed.good, ?_⟩
    rw [changed.logical]
    refine h.confined.update fun b bit => ?_
    rw [Sector.bit_clearBit, Bool.and_eq_false_iff] at bit
    -- the one bit that was set before is that of `id`
    refine bit.imp_right fun this => ?_
    have place : id.toNat / 4096 * 4096 + b.val = id.toNat := by
      simp only [Bool.not_eq_false', decide_eq_true_eq, Fin.ext_iff] at this
      omega
    show A (UInt32.ofNat (id.toNat / 4096 * 4096 + b.val))
    rwa [place, UInt32.ofNat_toNat]
  · cases cleared

theorem preserves_rollBack {ids : List SectorId} (all : ∀ id ∈ ids, A id) :
    Preserves (m.Bounded A) (m.rollBack ids) := by
  induction ids with
  | nil => exact preserves_pure ()
  | cons id rest ih =>
    have rest := ih fun id' hid' => all id' (List.mem_cons_of_mem _ hid')
    unfold rollBack
    refine (preserves_giveBack (all id List.mem_cons_self)).attempt.bind fun given => ?_
    split
    · exact rest
    · refine Preserves.bind (fun st h => ends_note fun _ hd hc => ?_) fun _ => rest
      exact h.same (h.intact.same_of_disk_of_cache hd hc)

/-- What was taken has ids with `A`, so giving it back keeps the bits confined. -/
theorem Bounded.ends_takeMore (h : m.Bounded A st) (requested : Nat) {taken : List SectorId}
    (missing : Nat) (all : ∀ id ∈ taken, A id) :
    Ends (m.takeMore requested taken missing) st
      (fun ids st' => m.Bounded A st' ∧ ∀ id ∈ ids, A id) fun _ st' => m.Bounded A st' := by
  induction missing generalizing taken st with
  | zero => exact ends_pure ⟨h, fun id hid => all id (List.mem_reverse.1 hid)⟩
  | succ missing ih =>
    unfold takeMore
    refine ((h.ends_takeFrom 0 m.sectors (Nat.le_of_eq (Nat.zero_add _))).attempt
      (D := fun r st' => m.Bounded A st' ∧ ∀ id, r = .ok (some id) → A id)
      (fun r st₁ h₁ => ⟨h₁.1, fun id e => h₁.2 id (Except.ok.inj e)⟩)
      fun c st₁ h₁ => ⟨h₁, fun id e => by cases e⟩).bind (fun r st₁ h₁ => ?_) fun _ _ h₁ => h₁
    obtain ⟨bounded, named⟩ := h₁
    have undo : Ends (m.rollBack taken.reverse) st₁ (fun _ st' => m.Bounded A st')
        fun _ st' => m.Bounded A st' :=
      preserves_rollBack (fun id hid => all id (List.mem_reverse.1 hid)) st₁ bounded
    rcases r with c | _ | id
    · exact undo.bind (fun _ _ h₂ => ends_throw h₂) fun _ _ h₂ => h₂
    · exact undo.bind (fun _ _ h₂ => ends_throw h₂) fun _ _ h₂ => h₂
    · exact ih bounded (List.forall_mem_cons.2 ⟨named id rfl, all⟩)

theorem Bounded.ends_allocate (h : m.Bounded A st) (count : Nat) :
    Ends (m.allocate count) st (fun ids st' => m.Bounded A st' ∧ ∀ id ∈ ids, A id)
      fun _ st' => m.Bounded A st' := by
  by_cases listable : Listable count
  · rw [allocate_eq listable]
    exact h.ends_takeMore count count nofun
  · exact ends_of_error (allocate_of_not_listable listable) h

theorem preserves_release {first : SectorId} {count : Nat}
    (named : ∀ id : SectorId, first.toNat ≤ id.toNat →
      id.toNat < first.toNat + count % wordRange32 → A id) :
    Preserves (m.Bounded A) (m.release first count) := by
  rw [release_eq]
  split
  · next small =>
    refine preserves_forEach fun i ge lt => preserves_giveBack ?_
    have number : (UInt32.ofNat i).toNat = i := UInt32.toNat_ofNat_of_lt' (Nat.lt_trans lt small)
    exact named _ (number.symm ▸ ge) (number.symm ▸ lt)
  · exact preserves_violate _

/-- The id is that of a sector which the bitmap manages and which is not reserved. -/
def Unreserved (m : FreeMap) (reserved : Nat) (id : SectorId) : Prop :=
  ∃ k, reserved ≤ k ∧ k < m.total ∧ id.toNat = k % wordRange32

/-- From here on the bits are confined, whatever was in the sectors of the bitmap before. -/
theorem ends_format (m : FreeMap) (reserved : Nat) (h : st.Intact) :
    Ends (m.format reserved) st (fun _ st' => m.Bounded (m.Unreserved reserved) st')
      fun _ st' => st'.Intact := by
  unfold format
  -- after the first `i` sectors the clear bits in there are unreserved
  let inv (i : Nat) (st' : Storage) : Prop :=
    st'.Intact ∧ ∀ j < i, ∀ b : Fin 4096, (st'.logical (m.block j)).bit b = false →
      m.Unreserved reserved (UInt32.ofNat (j * 4096 + b.val))
  have start : inv 0 st := ⟨h, nofun⟩
  refine (ends_forEach (I := inv) m.sectors start fun i st₁ _ _ h₁ => ?_).bind ?_ fun _ _ h => h
  · refine (m.ends_sectorAt i st₁).bind (fun s st₂ h₂ => ?_) fun _ _ same => same ▸ h₁.1
    obtain ⟨rfl, rfl⟩ := h₂
    refine (ends_modifySector h₁.1 (m.block i).toNat_lt _).mono (fun _ st₃ h₃ => ?_)
      fun _ _ halts => halts.same.good
    obtain ⟨s', set, changed⟩ := h₃
    refine ⟨changed.good, fun j hj b bit => ?_⟩
    rw [changed.logical, ← (Prod.mk.inj (Except.ok.inj set)).2] at bit
    by_cases e : m.block j = m.block i
    · rw [e, Function.update_self, Sector.bit_ofBits, Bool.or_eq_false_iff] at bit
      obtain ⟨ge, lt⟩ := bit
      refine ⟨i * 4096 + b.val, not_lt.1 (of_decide_eq_false ge), not_le.1 (of_decide_eq_false lt), ?_⟩
      rw [id_eq_of_block_eq e]
      exact UInt32.toNat_ofNat'
    · rw [Function.update_of_ne e] at bit
      refine h₁.2 j ?_ b bit
      rcases Nat.lt_succ_iff_lt_or_eq.1 hj with lt | rfl
      · exact lt
      · exact absurd rfl e
  · intro _ st₁ h₁
    refine ends_note fun st₂ hd hc => ?_
    have bounded : m.Bounded (m.Unreserved reserved) st₁ := by
      refine ⟨h₁.1, fun j hj => h₁.2 j ?_⟩
      rwa [Nat.zero_add]
    exact bounded.same (h₁.1.same_of_disk_of_cache hd hc)

/-! ## Runs -/

/-- The id lies in one of the ranges. Their lengths are 32-bit words. -/
def Named (ranges : List (SectorId × Nat)) (id : SectorId) : Prop :=
  ∃ range ∈ ranges, range.1.toNat ≤ id.toNat ∧ id.toNat < range.1.toNat + range.2 % wordRange32

/-- What can become of a bitmap of which sectors are asked for and given back as often as one likes,
with any arguments, as long as no rule is broken. The list holds the ranges that were to be given
back so far. -/
inductive Served (m : FreeMap) (reserved : Nat) : List (SectorId × Nat) → Storage → Prop
  /-- It is set up with the first `reserved` sectors taken. -/
  | formatted {st st' : Storage} : st.Intact → m.format reserved st = .ok () st' →
    Served m reserved [] st'
  /-- Sectors are taken. -/
  | allocated {given : List (SectorId × Nat)} {st st' : Storage} {count : Nat}
    {ids : List SectorId} : Served m reserved given st → m.allocate count st = .ok ids st' →
    Served m reserved given st'
  /-- There are too few, or a transfer fails. -/
  | refused {given : List (SectorId × Nat)} {st st' : Storage} {count : Nat} {c : Fault} :
    Served m reserved given st → m.allocate count st = .error (.fault c) st' →
    Served m reserved given st'
  /-- Sectors are given back. -/
  | released {given : List (SectorId × Nat)} {st st' : Storage} {first : SectorId} {count : Nat} :
    Served m reserved given st → m.release first count st = .ok () st' →
    Served m reserved ((first, count) :: given) st'
  /-- A transfer fails while they are given back. -/
  | broken {given : List (SectorId × Nat)} {st st' : Storage} {first : SectorId} {count : Nat}
    {c : Fault} : Served m reserved given st →
    m.release first count st = .error (.fault c) st' →
    Served m reserved ((first, count) :: given) st'

variable {reserved : Nat} {given : List (SectorId × Nat)}

theorem preserves_release_named (first : SectorId) (count : Nat) :
    Preserves (m.Bounded fun id => m.Unreserved reserved id ∨ Named ((first, count) :: given) id)
      (m.release first count) :=
  preserves_release fun _ ge lt => .inr ⟨_, List.mem_cons_self, ge, lt⟩

theorem Bounded.given_more {range : SectorId × Nat}
    (h : m.Bounded (fun id => m.Unreserved reserved id ∨ Named given id) st) :
    m.Bounded (fun id => m.Unreserved reserved id ∨ Named (range :: given) id) st :=
  h.mono fun _ => Or.imp_right fun ⟨range, mem, bounds⟩ => ⟨range, List.mem_cons_of_mem _ mem, bounds⟩

/-- By induction on the run: the clear bits are those of unreserved sectors and of sectors that were
to be given back. -/
theorem Served.bounded (h : m.Served reserved given st) :
    m.Bounded (fun id => m.Unreserved reserved id ∨ Named given id) st := by
  induction h with
  | formatted intact run => exact ((m.ends_format reserved intact).ok run).mono fun _ => .inl
  | allocated _ run ih => exact ((ih.ends_allocate _).ok run).1
  | refused _ run ih => exact (ih.ends_allocate _).error run
  | released _ run ih => exact (preserves_release_named _ _ _ ih.given_more).ok run
  | broken _ run ih => exact (preserves_release_named _ _ _ ih.given_more).error run

/-- What is handed out is managed and not reserved, or it was given back before. -/
theorem Served.in_bounds (h : m.Served reserved given st) {count : Nat} {ids : List SectorId}
    (run : m.allocate count st = .ok ids st') :
    ∀ id ∈ ids, m.Unreserved reserved id ∨ Named given id :=
  ((h.bounded.ends_allocate count).ok run).2

/-! ## Sectors that were not handed out before -/

/-- If there is a clear bit, the first of them is taken. -/
theorem meets_allocateOne {w : Prop} {n k : Nat} {rest : List Nat} (hp : m.Stands n)
    (h : st.Good w n []) (first : m.clear st.logical = k :: rest) :
    Meets (m.allocate 1) st (fun ids st' => ids = [UInt32.ofNat k] ∧ st'.Good w n [])
      fun _ _ => ¬ w := by
  rw [allocate_eq (by decide)]
  unfold takeMore
  refine Meets.bind (d := fun r st₁ => st₁.Good w n [] ∧
    ((∃ c, r = .error c) ∧ ¬ w ∨ r = .ok (some (UInt32.ofNat k))))
    ((meets_takeOne hp h).attempt (fun r st₁ h₁ => ⟨h₁.2.1, .inr ?_⟩)
      fun c st₁ h₁ => ⟨h₁.2.2.2.good, .inl ⟨⟨c, rfl⟩, h₁.2.1⟩⟩) (fun r st₁ h₁ => ?_) fun _ _ h => h
  · obtain ⟨-, -, h₁⟩ := h₁
    cases r with
    | none => exact absurd (first.symm.trans h₁.2) (List.cons_ne_nil k rest)
    | some id =>
      obtain ⟨j, took⟩ := h₁
      rw [took.id, (List.cons.inj (took.first.symm.trans first)).1]
  · obtain ⟨good, ⟨⟨c, rfl⟩, idle⟩ | rfl⟩ := h₁
    · exact meets_fail idle
    · exact meets_pure ⟨rfl, good⟩

/-- The first two of sixteen sectors are reserved, and sector 0 is given back all the same. -/
theorem exists_given_back : ∃ st st' : Storage, (⟨1, 1, 16⟩ : FreeMap).Served 2 [(0, 1)] st ∧
    (⟨1, 1, 16⟩ : FreeMap).allocate 1 st = .ok [0] st' ∧ st'.disk.failures = 0 := by
  have stands : (⟨1, 1, 16⟩ : FreeMap).Stands wordRange32 := ⟨by decide, Nat.le_refl _⟩
  obtain ⟨st₀, st₁, good₀, formats, good₁, clear₁⟩ := exists_formatted stands 2
  have covers : (⟨1, 1, 16⟩ : FreeMap).Covers st₁.logical 0 1 :=
    covers_of_reserved clear₁ (by decide) (by decide)
  obtain ⟨_, st₂, releases, -, good₂, freed⟩ := (ends_release stands good₁ 0 1).returns
    fun _ _ stuck => (stuck.2.2 (by decide) covers).1 trivial
  have clear₂ : (⟨1, 1, 16⟩ : FreeMap).clear st₂.logical = 0 :: List.range' 2 14 := by
    refine FreeMap.clear_eq (by decide) fun k => ?_
    rw [freed.clears.clear, clear₁, List.mem_cons, List.mem_range'_1]
    show (k < 4096 ∧ 2 ≤ k ∧ k < 16) ∨ 0 ≤ k ∧ k < 1 ↔ _
    omega
  obtain ⟨_, st₃, takes, rfl, good₃⟩ := (meets_allocateOne stands good₂ clear₂).ends.returns
    fun _ _ ⟨_, _, idle⟩ => idle trivial
  exact ⟨st₂, st₃, .released (.formatted good₀.intact formats) releases, takes,
    (good₃.working trivial).clean⟩

/-- What is handed out after that is the sector given back. -/
theorem in_bounds_of_given_back : ∃ st st' : Storage, (⟨1, 1, 16⟩ : FreeMap).Served 2 [(0, 1)] st ∧
    (⟨1, 1, 16⟩ : FreeMap).allocate 1 st = .ok [0] st' ∧
    ∀ id ∈ [(0 : SectorId)], (⟨1, 1, 16⟩ : FreeMap).Unreserved 2 id ∨ Named [(0, 1)] id := by
  obtain ⟨st, st', served, run, -⟩ := exists_given_back
  exact ⟨st, st', served, run, served.in_bounds run⟩

/-- A reserved sector is handed out if it was given back before, and also instead of the one whose
number it has in 32 bits. -/
theorem hands_out_reserved :
    (∃ st st' : Storage, (⟨1, 1, 16⟩ : FreeMap).Served 2 [(0, 1)] st ∧
      (⟨1, 1, 16⟩ : FreeMap).allocate 1 st = .ok [0] st' ∧ st'.disk.failures = 0 ∧
      ¬ 2 ≤ (0 : SectorId).toNat) ∧
    ∃ st st' : Storage, (⟨0, 1048577, 4294967297⟩ : FreeMap).Served 4294967296 [] st ∧
      (⟨0, 1048577, 4294967297⟩ : FreeMap).allocate 1 st = .ok [0] st' ∧ st'.disk.failures = 0 ∧
      ¬ 4294967296 ≤ (0 : SectorId).toNat := by
  refine ⟨?_, ?_⟩
  · obtain ⟨st, st', served, run, clean⟩ := exists_given_back
    exact ⟨st, st', served, run, clean, by decide⟩
  · have stands : (⟨0, 1048577, 4294967297⟩ : FreeMap).Stands wordRange32 :=
      ⟨by decide, Nat.le_refl _⟩
    obtain ⟨st₀, st₁, good₀, formats, good₁, clear₁⟩ := exists_formatted stands 4294967296
    have last : (⟨0, 1048577, 4294967297⟩ : FreeMap).clear st₁.logical = [4294967296] := by
      refine FreeMap.clear_eq (List.pairwise_singleton ..) fun k => ?_
      rw [clear₁, List.mem_singleton]
      show k < 1048577 * 4096 ∧ 4294967296 ≤ k ∧ k < 4294967297 ↔ _
      omega
    obtain ⟨_, st₂, takes, rfl, good₂⟩ := (meets_allocateOne stands good₁ last).ends.returns
      fun _ _ ⟨_, _, idle⟩ => idle trivial
    exact ⟨st₁, st₂, .formatted good₀.intact formats, takes, (good₂.working trivial).clean,
      by decide⟩

end FreeMap

end SectorVolume
