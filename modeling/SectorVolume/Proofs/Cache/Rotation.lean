import Mathlib.Data.List.Induction
import Mathlib.Data.List.Nodup
import Mathlib.Data.List.Perm.Subperm
import SectorVolume.Proofs.Cache.Representation
import SectorVolume.Proofs.Cache.Rounds

/-!
# The clock goes round

Sectors are read one after the other, none of which is in the cache when it is read, and no slot is
dirty or in use. Then the slots that got one of them are not chosen again before all the other slots
were: as many reads as there are slots replace the whole cache.

Which slot is chosen depends on the marks that earlier choices left. What is kept is how marks and
age go together along the ring: behind a new slot that is idle there are only new slots, behind a
new slot there are only new ones among those used lately, and if some new slot is idle all slots
used lately are new.
-/

namespace SectorVolume

namespace Cache

variable {c c' : Cache} {news : List SectorId} {sector : SectorId} {i : Nat}

/-- Slot `j` holds one of the sectors `news`. -/
def New (news : List SectorId) (c : Cache) (j : Nat) : Prop :=
  ∃ s ∈ news, (c.slot j).sector? = some s

/-- How marks and age go together along the ring. -/
structure Ordered (news : List SectorId) (c : Cache) : Prop where
  behindIdle : c.ring.toList.Pairwise fun i j =>
    c.New news i → (c.slot i).isAccessed = false → c.New news j
  behindNew : c.ring.toList.Pairwise fun i j =>
    c.New news i → (c.slot j).isAccessed = true → c.New news j
  idle : ∀ i j, c.New news i → (c.slot i).isAccessed = false → (c.slot j).isAccessed = true →
    c.New news j

/-- The sectors `news` were read, and all of them are still in the cache. -/
structure Rotating (news : List SectorId) (c : Cache) : Prop where
  wellFormed : c.WellFormed
  /-- No slot is dirty or in use. -/
  ready : ∀ j, (c.slot j).isReady = true
  nodup : news.Nodup
  resident : ∀ s ∈ news, c.lookup s ≠ none
  order : Ordered news c

/-! ## The chosen slot is an old one -/

theorem isIdle_eq {s : Slot} (ready : s.isReady = true) : s.isIdle = !s.isAccessed := by
  have e : s.isIdle = (s.isReady && !s.isAccessed) := rfl
  rw [e, ready, Bool.true_and]

/-- If all slots could be given away, the first one that was not used lately is chosen, or else the
first one of the ring. -/
theorem Chosen.of_ready {sel : Selection} (h : Chosen c c' sel)
    (ready : ∀ j, (c.slot j).isReady = true) :
    ∃ demoted passed rest, Took demoted passed sel.victim rest c c' ∧
      ((demoted = passed ∧ (∀ j ∈ passed, (c.slot j).isAccessed = true) ∧
          (c.slot sel.victim).isAccessed = false) ∨
        (demoted = c.ring.toList ∧ passed = [] ∧
          ∀ j ∈ c.ring.toList, (c.slot j).isAccessed = true)) := by
  have accessed : ∀ j, (c.slot j).isIdle = false → (c.slot j).isAccessed = true := fun j h => by
    simpa [isIdle_eq (ready j)] using h
  cases h with
  | @idle passed rest i rejected accepted took =>
    refine ⟨_, _, _, took, .inl ⟨rfl, fun j hj => accessed j (rejected j hj), ?_⟩⟩
    simpa [isIdle_eq (ready i)] using accepted
  | @ready passed rest i none rejected accepted took =>
    -- the first slot of the ring could be given away, so that none is passed
    have head : passed = [] := by
      cases passed with
      | nil => rfl
      | cons j passed =>
        have rejected := rejected j List.mem_cons_self
        rw [ready j] at rejected
        cases rejected
    exact ⟨_, _, _, took, .inr ⟨rfl, head, fun j hj => accessed j (none j hj)⟩⟩
  | @unused passed rest i none _ _ took =>
    have notReady := none i took.mem
    rw [ready i] at notReady
    cases notReady
  | @used rest i none took =>
    have inUse := none i took.mem
    have ready := ready i
    simp only [Slot.isReady, Bool.and_eq_true] at ready
    simp [Slot.isUnused, ready] at inUse

/-- As long as fewer sectors were read than there are slots, some slot is an old one. -/
theorem WellFormed.exists_old (wf : c.WellFormed) (few : news.length < c.slots.size) :
    ∃ j ∈ c.ring.toList, ¬ c.New news j := by
  by_contra all
  push Not at all
  have distinct : ((List.range c.slots.size).map fun j => (c.slot j).sector?).Nodup := by
    refine List.nodup_range.map_on fun j hj k hk e => ?_
    obtain ⟨s, -, hs⟩ := all j (wf.ring.mem_iff.2 hj)
    have first := (wf.index s j).2 hs
    rw [(wf.index s k).2 (e ▸ hs)] at first
    exact (Option.some.inj first).symm
  have inside : ((List.range c.slots.size).map fun j => (c.slot j).sector?) ⊆ news.map some := by
    intro o ho
    obtain ⟨j, hj, rfl⟩ := List.mem_map.1 ho
    obtain ⟨s, mem, hs⟩ := all j (wf.ring.mem_iff.2 hj)
    rw [hs]
    exact List.mem_map_of_mem mem
  have length := (List.subperm_of_subset distinct inside).length_le
  simp only [List.length_map, List.length_range] at length
  omega

theorem Rotating.old_victim {demoted passed rest : List Nat} (h : Rotating news c)
    (few : news.length < c.slots.size) (took : Took demoted passed i rest c c')
    (why : (∀ j ∈ passed, (c.slot j).isAccessed = true) ∧ (c.slot i).isAccessed = false ∨
      passed = [] ∧ ∀ j ∈ c.ring.toList, (c.slot j).isAccessed = true) : ¬ c.New news i := by
  intro new
  have idle := h.order.behindIdle
  have accessed := h.order.behindNew
  rw [took.before] at idle accessed
  -- if the chosen slot were new, all slots would be
  have all : ∀ j ∈ c.ring.toList, c.New news j := by
    intro j hj
    rw [took.before, List.mem_append, List.mem_cons] at hj
    rcases why with ⟨used, unused⟩ | ⟨rfl, used⟩
    · rcases hj with hj | rfl | hj
      · exact h.order.idle i j new unused (used j hj)
      · exact new
      · exact (List.pairwise_cons.1 (List.pairwise_append.1 idle).2.1).1 j hj new unused
    · rcases hj with hj | rfl | hj
      · cases hj
      · exact new
      · refine (List.pairwise_cons.1 accessed).1 j hj new (used j ?_)
        rw [took.before]
        exact List.mem_cons_of_mem _ hj
  obtain ⟨j, hj, old⟩ := h.wellFormed.exists_old few
  exact old (all j hj)

/-! ## What a read does to the slots -/

/-- Slot `i` is given to a sector and read. -/
def refill (c : Cache) (i : Nat) (sector : SectorId) (b : Sector) : Cache :=
  ((c.vacate i).bind i ⟨sector, .clean, b⟩).touch i

section Refill

variable {b : Sector}

@[simp] theorem ring_refill : (c.refill i sector b).ring = c.ring := by
  simp [refill, touch]

@[simp] theorem size_refill : (c.refill i sector b).slots.size = c.slots.size := by
  simp [refill, touch]

theorem slot_refill_self (lt : i < c.slots.size) :
    (c.refill i sector b).slot i = ⟨some ⟨sector, .accessed, b⟩, (c.slot i).pins⟩ := by
  have inside : i < ((c.vacate i).bind i ⟨sector, .clean, b⟩).slots.size := by simpa using lt
  rw [refill, touch, slot_modifySlot_self inside, slot_bind, if_pos ⟨rfl, by simpa using lt⟩,
    slot_vacate, if_pos rfl]
  rfl

theorem slot_refill_of_ne {j : Nat} (ne : i ≠ j) : (c.refill i sector b).slot j = c.slot j := by
  rw [refill, touch, slot_modifySlot_of_ne ne, slot_bind, if_neg fun e => ne e.1, slot_vacate,
    if_neg ne]

theorem lookup_refill_self : (c.refill i sector b).lookup sector = some i := by
  rw [refill, touch, lookup_modifySlot, lookup_bind, if_pos rfl]

/-- A sector that is not in the slot keeps its own. -/
theorem lookup_refill_of_ne (wf : c.WellFormed) {s : SectorId} {j : Nat} (ne : s ≠ sector)
    (found : c.lookup s = some j) (apart : i ≠ j) : (c.refill i sector b).lookup s = some j := by
  rw [refill, touch, lookup_modifySlot, lookup_bind, if_neg (Ne.symm ne)]
  cases e : (c.slot i).line with
  | none => rwa [vacate_eq_self e]
  | some l =>
    rw [lookup_vacate e, if_neg, found]
    rintro rfl
    rw [wf.lookup_of_line e] at found
    exact apart (Option.some.inj found)

/-- What was in no slot still is not, but for the sector that was read. -/
theorem lookup_refill_eq_none {s : SectorId} (ne : s ≠ sector) (absent : c.lookup s = none) :
    (c.refill i sector b).lookup s = none := by
  rw [refill, touch, lookup_modifySlot, lookup_bind, if_neg (Ne.symm ne)]
  cases e : (c.slot i).line with
  | none => rwa [vacate_eq_self e]
  | some l => rw [lookup_vacate e, absent, ite_self]

theorem wellFormed_refill (wf : c.WellFormed) (lt : i < c.slots.size)
    (absent : c.lookup sector = none) : (c.refill i sector b).WellFormed := by
  have vacated : (c.vacate i).lookup sector = none := by
    cases e : (c.slot i).line with
    | none => rwa [vacate_eq_self e]
    | some l => rw [lookup_vacate e, absent, ite_self]
  have empty : ((c.vacate i).slot i).line = none := by
    rw [slot_vacate, if_pos rfl]
  have bound := (wf.vacate i).bind (l := ⟨sector, .clean, b⟩) (by simpa using lt) empty vacated
  exact bound.modifySlot (Slot.sector?_mapMark ..)

end Refill

/-! ## One read -/

/-- Slot `i`, which was chosen in `c`, was given to a sector, and the slots `demoted` are not marked
any more. -/
structure Replaced (demoted passed : List Nat) (i : Nat) (rest : List Nat) (sector : SectorId)
    (c c' : Cache) : Prop where
  before : c.ring.toList = passed ++ i :: rest
  after : c'.ring.toList = rest ++ passed ++ [i]
  sector : (c'.slot i).sector? = some sector
  accessed : (c'.slot i).isAccessed = true
  others : ∀ j, i ≠ j →
    c'.slot j = if j ∈ demoted then (c.slot j).mapMark Mark.demoted else c.slot j

namespace Replaced

variable {demoted passed rest : List Nat}

theorem new_self (h : Replaced demoted passed i rest sector c c') : c'.New (news ++ [sector]) i :=
  ⟨sector, by simp, h.sector⟩

theorem new_iff (news : List SectorId) (h : Replaced demoted passed i rest sector c c')
    (wf : c.WellFormed) (absent : c.lookup sector = none) {j : Nat} (ne : i ≠ j) :
    c'.New (news ++ [sector]) j ↔ c.New news j := by
  have same : (c'.slot j).sector? = (c.slot j).sector? := by
    rw [h.others j ne]
    split
    · exact Slot.sector?_mapMark ..
    · rfl
  unfold New
  rw [same]
  constructor
  · rintro ⟨s, mem, hs⟩
    rcases List.mem_append.1 mem with mem | mem
    · exact ⟨s, mem, hs⟩
    · rw [List.mem_singleton.1 mem] at hs
      rw [(wf.index _ _).2 hs] at absent
      cases absent
  · rintro ⟨s, mem, hs⟩
    exact ⟨s, List.mem_append_left _ mem, hs⟩

theorem isAccessed_of_mem (h : Replaced demoted passed i rest sector c c') {j : Nat} (ne : i ≠ j)
    (mem : j ∈ demoted) : (c'.slot j).isAccessed = false := by
  rw [h.others j ne, if_pos mem]
  exact Slot.isAccessed_mapMark_demoted _

theorem isAccessed_of_not_mem (h : Replaced demoted passed i rest sector c c') {j : Nat}
    (ne : i ≠ j) (mem : j ∉ demoted) : (c'.slot j).isAccessed = (c.slot j).isAccessed := by
  rw [h.others j ne, if_neg mem]

end Replaced

/-- The ring after a turn is ordered if its two parts are and what was passed may come last. -/
theorem pairwise_turned {R : Nat → Nat → Prop} {passed rest : List Nat} (first : rest.Pairwise R)
    (second : passed.Pairwise R) (across : ∀ a ∈ rest, ∀ b ∈ passed, R a b) (last : ∀ a, R a i) :
    (rest ++ passed ++ [i]).Pairwise R := by
  refine List.pairwise_append.2 ⟨List.pairwise_append.2 ⟨first, second, across⟩,
    List.pairwise_singleton R i, fun a _ b hb => ?_⟩
  rw [List.mem_singleton.1 hb]
  exact last a

theorem mem_ring_of_accessed (wf : c.WellFormed) {j : Nat} (h : (c.slot j).isAccessed = true) :
    j ∈ c.ring.toList := by
  by_contra outside
  rw [slot_eq_default (Nat.le_of_not_lt fun lt => outside (wf.mem_ring.2 lt))] at h
  cases h

namespace Replaced

variable {demoted passed rest : List Nat} {R : Nat → Nat → Prop}

/-- The parts of the ring are apart from each other. -/
theorem apart (h : Replaced demoted passed i rest sector c c') (wf : c.WellFormed) :
    (∀ j ∈ passed, i ≠ j) ∧ (∀ j ∈ rest, i ≠ j) ∧ ∀ j ∈ rest, j ∉ passed := by
  have nodup := wf.ring.nodup_iff.2 List.nodup_range
  rw [h.before] at nodup
  obtain ⟨-, back, apart⟩ := List.nodup_append.1 nodup
  obtain ⟨fresh, -⟩ := List.nodup_cons.1 back
  refine ⟨?_, ?_, ?_⟩
  · intro j hj e
    exact apart j hj i List.mem_cons_self e.symm
  · rintro j hj rfl
    exact fresh hj
  · intro j hj hp
    exact apart j hp j (List.mem_cons_of_mem _ hj) rfl

theorem pairwise_rest (h : Replaced demoted passed i rest sector c c')
    (ring : c.ring.toList.Pairwise R) : rest.Pairwise R := by
  rw [h.before] at ring
  exact (List.pairwise_cons.1 (List.pairwise_append.1 ring).2.1).2

theorem pairwise_passed (h : Replaced demoted passed i rest sector c c')
    (ring : c.ring.toList.Pairwise R) : passed.Pairwise R := by
  rw [h.before] at ring
  exact (List.pairwise_append.1 ring).1

theorem across (h : Replaced demoted passed i rest sector c c')
    (ring : c.ring.toList.Pairwise R) : ∀ a ∈ passed, ∀ b ∈ rest, R a b := by
  rw [h.before] at ring
  intro a ha b hb
  exact (List.pairwise_append.1 ring).2.2 a ha b (List.mem_cons_of_mem _ hb)

end Replaced

section FirstIdle

variable {passed rest : List Nat} (h : Ordered news c) (wf : c.WellFormed)
  (r : Replaced passed passed i rest sector c c') (absent : c.lookup sector = none)
  (used : ∀ j ∈ passed, (c.slot j).isAccessed = true)

include h wf r absent used

/-- The slots that were passed were used lately before, and are not marked any more. -/
theorem Ordered.behindIdle_of_idle : c'.ring.toList.Pairwise fun a b =>
    c'.New (news ++ [sector]) a → (c'.slot a).isAccessed = false → c'.New (news ++ [sector]) b := by
  obtain ⟨nePassed, neRest, apart⟩ := r.apart wf
  have new := fun j (ne : i ≠ j) => r.new_iff news wf absent ne
  rw [r.after]
  apply pairwise_turned
  · refine (r.pairwise_rest h.behindIdle).imp_of_mem fun {a b} ha hb keeps => ?_
    rw [new a (neRest a ha), new b (neRest b hb),
      r.isAccessed_of_not_mem (neRest a ha) (apart a ha)]
    exact keeps
  · refine (r.pairwise_passed h.behindNew).imp_of_mem fun {a b} ha hb keeps => ?_
    rw [new a (nePassed a ha), new b (nePassed b hb)]
    intro isNew _
    exact keeps isNew (used b hb)
  · intro a ha b hb
    rw [new a (neRest a ha), new b (nePassed b hb),
      r.isAccessed_of_not_mem (neRest a ha) (apart a ha)]
    intro isNew unused
    exact h.idle a b isNew unused (used b hb)
  · intro a _ _
    exact r.new_self

omit used in
theorem Ordered.behindNew_of_idle : c'.ring.toList.Pairwise fun a b =>
    c'.New (news ++ [sector]) a → (c'.slot b).isAccessed = true → c'.New (news ++ [sector]) b := by
  obtain ⟨nePassed, neRest, apart⟩ := r.apart wf
  have new := fun j (ne : i ≠ j) => r.new_iff news wf absent ne
  -- no slot that was passed is marked now
  have unmarked : ∀ b ∈ passed, (c'.slot b).isAccessed ≠ true := by
    intro b hb marked
    rw [r.isAccessed_of_mem (nePassed b hb) hb] at marked
    cases marked
  rw [r.after]
  apply pairwise_turned
  · refine (r.pairwise_rest h.behindNew).imp_of_mem fun {a b} ha hb keeps => ?_
    rw [new a (neRest a ha), new b (neRest b hb),
      r.isAccessed_of_not_mem (neRest b hb) (apart b hb)]
    exact keeps
  · refine (r.pairwise_passed h.behindNew).imp_of_mem fun {a b} _ hb _ _ marked => ?_
    exact absurd marked (unmarked b hb)
  · intro a _ b hb _ marked
    exact absurd marked (unmarked b hb)
  · intro a _ _
    exact r.new_self

omit used in
theorem Ordered.idle_of_idle (a b : Nat) (isNew : c'.New (news ++ [sector]) a)
    (unused : (c'.slot a).isAccessed = false) (marked : (c'.slot b).isAccessed = true) :
    c'.New (news ++ [sector]) b := by
  by_cases eb : i = b
  · exact eb ▸ r.new_self
  have ea : i ≠ a := by
    rintro rfl
    rw [r.accessed] at unused
    cases unused
  have hb : b ∉ passed := by
    intro hb
    rw [r.isAccessed_of_mem eb hb] at marked
    cases marked
  rw [r.isAccessed_of_not_mem eb hb] at marked
  rw [r.new_iff news wf absent ea] at isNew
  rw [r.new_iff news wf absent eb]
  by_cases ha : a ∈ passed
  · -- what was passed stood before everything that is still marked
    have inRing := mem_ring_of_accessed wf marked
    rw [r.before, List.mem_append, List.mem_cons] at inRing
    rcases inRing with mem | e | mem
    · exact absurd mem hb
    · exact absurd e.symm eb
    · exact r.across h.behindNew a ha b mem isNew marked
  · rw [r.isAccessed_of_not_mem ea ha] at unused
    exact h.idle a b isNew unused marked

/-- The order is kept when the first idle slot was chosen. -/
theorem Ordered.of_idle : c'.Ordered (news ++ [sector]) where
  behindIdle := h.behindIdle_of_idle wf r absent used
  behindNew := h.behindNew_of_idle wf r absent
  idle := h.idle_of_idle wf r absent

end FirstIdle

/-- The order is kept when all slots were used lately and the first one of the ring was chosen. -/
theorem Ordered.of_used {rest : List Nat} (h : Ordered news c) (wf : c.WellFormed)
    (r : Replaced c.ring.toList [] i rest sector c c') (absent : c.lookup sector = none)
    (used : ∀ j ∈ c.ring.toList, (c.slot j).isAccessed = true) :
    c'.Ordered (news ++ [sector]) := by
  obtain ⟨-, neRest, -⟩ := r.apart wf
  have new := fun j (ne : i ≠ j) => r.new_iff news wf absent ne
  -- only the slot that was filled counts as used lately now
  have marked_new : ∀ j, (c'.slot j).isAccessed = true → c'.New (news ++ [sector]) j := by
    intro j marked
    by_cases e : i = j
    · exact e ▸ r.new_self
    have outside : j ∉ c.ring.toList := by
      intro mem
      rw [r.isAccessed_of_mem e mem] at marked
      cases marked
    rw [r.isAccessed_of_not_mem e outside] at marked
    exact absurd (mem_ring_of_accessed wf marked) outside
  have restNew := r.pairwise_rest h.behindNew
  constructor
  · rw [r.after]
    refine pairwise_turned ?_ .nil nofun fun _ _ _ => r.new_self
    refine restNew.imp_of_mem fun {a b} ha hb keeps => ?_
    rw [new a (neRest a ha), new b (neRest b hb)]
    intro isNew _
    refine keeps isNew (used b ?_)
    rw [r.before]
    exact List.mem_cons_of_mem _ hb
  · rw [r.after]
    refine pairwise_turned ?_ .nil nofun fun _ _ _ => r.new_self
    exact List.pairwise_of_forall fun _ j _ => marked_new j
  · intro _ j _ _
    exact marked_new j

/-! ## One step -/

theorem Took.replaced {demoted passed rest : List Nat} {b : Sector}
    (took : Took demoted passed i rest c c') (lt : i < c'.slots.size) :
    Replaced demoted passed i rest sector c (c'.refill i sector b) where
  before := took.before
  after := by
    rw [ring_refill]
    exact took.after
  sector := by
    rw [slot_refill_self lt]
    rfl
  accessed := by
    rw [slot_refill_self lt]
    rfl
  others j ne := by
    rw [slot_refill_of_ne ne, took.slot]

theorem isReady_refill {b : Sector} (ready : ∀ j, (c.slot j).isReady = true)
    (lt : i < c.slots.size) (j : Nat) : ((c.refill i sector b).slot j).isReady = true := by
  by_cases ne : i = j
  · have unused := ready i
    simp only [Slot.isReady, Bool.and_eq_true] at unused
    rw [← ne, slot_refill_self lt]
    simp [Slot.isReady, Slot.isDirty, unused.1]
  · rw [slot_refill_of_ne ne]
    exact ready j

/-- The slot of a sector that was read before is a new one, and so it is not an old one that was
chosen. -/
theorem lookup_refill_ne_none {b : Sector} (wf : c.WellFormed) (old : ¬ c.New news i)
    (absent : c.lookup sector = none) (resident : ∀ s ∈ news, c.lookup s ≠ none) {s : SectorId}
    (mem : s ∈ news ++ [sector]) : (c.refill i sector b).lookup s ≠ none := by
  rcases List.mem_append.1 mem with mem | mem
  · obtain ⟨j, found⟩ := Option.ne_none_iff_exists'.1 (resident s mem)
    have apart : i ≠ j := by
      rintro rfl
      exact old ⟨s, mem, (wf.index _ _).1 found⟩
    have ne : s ≠ sector := by
      rintro rfl
      rw [absent] at found
      cases found
    rw [lookup_refill_of_ne wf ne found apart]
    exact Option.some_ne_none j
  · rw [List.mem_singleton.1 mem, lookup_refill_self]
    exact Option.some_ne_none i

/-- A sector that is read when it is not in the cache replaces none of those that were read
before. -/
theorem Rotating.step {c₁ : Cache} {sel : Selection} {b : Sector} (h : Rotating news c)
    (few : news.length < c.slots.size) (absent : c.lookup sector = none)
    (chosen : Chosen c c₁ sel) : Rotating (news ++ [sector]) (c₁.refill sel.victim sector b) := by
  have wf := h.wellFormed
  obtain ⟨demoted, passed, rest, took, why⟩ := chosen.of_ready h.ready
  have passes := took.passes
  have wf₁ := passes.wellFormed wf
  have lt : sel.victim < c₁.slots.size := by
    rw [took.size]
    exact wf.mem_ring.1 took.mem
  have absent₁ : c₁.lookup sector = none := by rw [passes.lookup, absent]
  have resident₁ : ∀ s ∈ news, c₁.lookup s ≠ none := by
    intro s mem
    rw [passes.lookup]
    exact h.resident s mem
  have ready₁ : ∀ j, (c₁.slot j).isReady = true := by
    intro j
    rw [Storage.isReady_of_demoted (passes.slot j)]
    exact h.ready j
  have old : ¬ c₁.New news sel.victim := by
    rintro ⟨s, mem, hs⟩
    have old : ¬ c.New news sel.victim := by
      refine h.old_victim few took ?_
      rcases why with ⟨-, used, unused⟩ | ⟨-, none, used⟩
      · exact .inl ⟨used, unused⟩
      · exact .inr ⟨none, used⟩
    refine old ⟨s, mem, (wf.index _ _).1 ?_⟩
    rw [← passes.lookup]
    exact (wf₁.index _ _).2 hs
  have replaced : Replaced demoted passed sel.victim rest sector c
      (c₁.refill sel.victim sector b) := took.replaced lt
  constructor
  case wellFormed => exact wellFormed_refill wf₁ lt absent₁
  case ready => exact isReady_refill ready₁ lt
  case nodup =>
    refine List.nodup_append.2 ⟨h.nodup, List.nodup_singleton sector, ?_⟩
    rintro s mem _ again rfl
    rw [List.mem_singleton.1 again] at mem
    exact h.resident sector mem absent
  case resident => exact fun s => lookup_refill_ne_none wf₁ old absent₁ resident₁
  case order =>
    rcases why with ⟨rfl, used, unused⟩ | ⟨rfl, rfl, used⟩
    · exact h.order.of_idle wf replaced absent used
    · exact h.order.of_used wf replaced absent used

/-- Nothing was read yet. -/
theorem rotating_nil (wf : c.WellFormed) (ready : ∀ j, (c.slot j).isReady = true) :
    Rotating [] c := by
  have old : ∀ j, ¬ c.New [] j := by
    rintro j ⟨s, mem, -⟩
    cases mem
  refine ⟨wf, ready, .nil, nofun, ?_, ?_, fun i _ isNew => absurd isNew (old i)⟩
  · exact List.pairwise_of_forall fun i _ isNew => absurd isNew (old i)
  · exact List.pairwise_of_forall fun i _ isNew => absurd isNew (old i)

theorem WellFormed.mem_resident (wf : c.WellFormed) {s : SectorId} (h : c.lookup s ≠ none) :
    s ∈ c.resident := by
  cases found : c.lookup s with
  | none => exact absurd found h
  | some j =>
    obtain ⟨l, hl, hs⟩ := wf.line_of_lookup found
    have lt := lt_size_of_line hl
    refine List.mem_filterMap.2 ⟨c.slot j, ?_, by rw [hl, Option.map_some, hs]⟩
    simp [slot, Array.getD_eq_getD_getElem?, lt]

/-- When as many sectors were read as there are slots, there are no others in the cache. -/
theorem Rotating.resident_perm (h : Rotating news c) (all : news.length = c.slots.size) :
    c.resident.Perm news := by
  have sub : news ⊆ c.resident := fun s mem => h.wellFormed.mem_resident (h.resident s mem)
  have few : c.resident.length ≤ news.length := by
    rw [all]
    exact (List.length_filterMap_le ..).trans (Nat.le_of_eq (by simp))
  exact ((List.subperm_of_subset h.nodup sub).perm_of_length_le few).symm

end Cache

namespace Storage

open SectorVolume.Action

variable {st st' st'' : Storage} {sectors : List SectorId} {sector : SectorId}

/-- The sectors were read one after the other, each one when it was not in the cache. -/
inductive Misses (st : Storage) : List SectorId → Storage → Prop
  /-- Nothing was read. -/
  | nil : Misses st [] st
  /-- One more sector was read. -/
  | snoc {sectors : List SectorId} {sector : SectorId} {offset len : Nat} {b : Bytes}
      {st' st'' : Storage} : Misses st sectors st' → st'.cache.lookup sector = none →
      read sector offset len st' = .ok b st'' → Misses st (sectors ++ [sector]) st''

/-- If all slots could be given away a sector is read into the chosen one. -/
theorem ends_read_missed (wf : st.cache.WellFormed) (pos : 0 < st.cache.slots.size)
    (ready : ∀ j, (st.cache.slot j).isReady = true) (absent : st.cache.lookup sector = none)
    (offset len : Nat) :
    Ends (read sector offset len) st
      (fun _ st' => ∃ c sel b, st.cache.Chosen c sel ∧ st'.cache = c.refill sel.victim sector b)
      fun _ _ => True := by
  unfold read
  refine (ends_checkRange st offset len _).bind ?_ fun _ _ _ => trivial
  rintro _ st ⟨rfl, -⟩
  have chosen := Cache.select_chosen wf pos
  have free : (st.cache.select.2.slot st.cache.select.1.victim).isReady = true := by
    rw [isReady_of_demoted (chosen.passes.slot _)]
    exact ready _
  have found := round_of_ready free
  refine Ends.bind (d := fun i st₂ => i = st.cache.select.1.victim ∧
    ∃ b, st₂.cache = (st.cache.select.2.vacate i).bind i ⟨sector, .clean, b⟩) ?_ ?_
    fun _ _ h => h
  · have vacant : vacancy st = .ok st.cache.select.1.victim
        ⟨st.disk, st.cache.select.2, st.log⟩ := by
      rw [vacancy_eq]
      exact run_bind found rfl
    refine Ends.of_eq ?_ (fetch_of_absent absent .disk)
    rw [claim_eq]
    refine (ends_of_ok vacant ⟨rfl, rfl⟩ : Ends vacancy st (fun i st₁ =>
      i = st.cache.select.1.victim ∧ st₁.cache = st.cache.select.2) fun _ _ => True).bind ?_
      fun _ _ h => h
    rintro _ st₁ ⟨rfl, hc⟩
    refine (ends_install st₁ sector .disk _).mono ?_ fun _ _ _ => trivial
    rintro _ st₂ ⟨rfl, filled⟩
    have bound := filled.cache
    rw [hc] at bound
    exact ⟨rfl, _, bound⟩
  · rintro _ st₂ ⟨rfl, b, hc⟩
    refine Ends.bind (d := fun _ st₃ => st₃.cache = st₂.cache.touch st.cache.select.1.victim)
      (ends_modifyGet rfl) ?_ fun _ _ h => h
    intro _ st₃ hc₃
    refine ends_note_bind fun st₄ _ hc₄ => ends_pure ⟨_, _, b, chosen, ?_⟩
    rw [hc₄, hc₃, hc]
    rfl

/-- The sectors that were read are all different and still in the cache. -/
theorem Misses.rotating (h : Misses st sectors st') (wf : st.cache.WellFormed)
    (ready : ∀ j, (st.cache.slot j).isReady = true)
    (few : sectors.length ≤ st.cache.slots.size) :
    st'.cache.Rotating sectors ∧ st'.cache.slots.size = st.cache.slots.size := by
  induction h with
  | nil => exact ⟨Cache.rotating_nil wf ready, rfl⟩
  | @snoc sectors sector offset len b st' st'' _ absent run ih =>
    rw [List.length_append, List.length_singleton] at few
    obtain ⟨rotating, size⟩ := ih (by omega)
    have more : sectors.length < st'.cache.slots.size := by omega
    obtain ⟨c, sel, b, chosen, hc⟩ := (ends_read_missed rotating.wellFormed (by omega)
      rotating.ready absent offset len).ok run
    rw [hc]
    refine ⟨rotating.step more absent chosen, ?_⟩
    rw [Cache.size_refill, chosen.passes.size, size]

/-- What was in no slot and was not read still is in none. -/
theorem Misses.lookup_eq_none (h : Misses st sectors st') (wf : st.cache.WellFormed)
    (ready : ∀ j, (st.cache.slot j).isReady = true) (few : sectors.length ≤ st.cache.slots.size)
    {s : SectorId} (other : s ∉ sectors) (absent : st.cache.lookup s = none) :
    st'.cache.lookup s = none := by
  induction h with
  | nil => exact absent
  | @snoc sectors sector offset len b st' st'' misses missed run ih =>
    rw [List.length_append, List.length_singleton] at few
    rw [List.mem_append, List.mem_singleton, not_or] at other
    obtain ⟨rotating, size⟩ := misses.rotating wf ready (by omega)
    obtain ⟨c, sel, b, chosen, hc⟩ := (ends_read_missed rotating.wellFormed (by omega)
      rotating.ready missed offset len).ok run
    rw [hc]
    refine Cache.lookup_refill_eq_none other.2 ?_
    rw [chosen.passes.lookup]
    exact ih (by omega) other.1

/-- On a disk that works, different sectors that are in no slot can be read one after the other. -/
theorem exists_misses {n : Nat} (good : st.Good True n [])
    (ready : ∀ j, (st.cache.slot j).isReady = true) (few : sectors.length ≤ st.cache.slots.size)
    (nodup : sectors.Nodup) (inside : ∀ s ∈ sectors, s.toNat < n)
    (absent : ∀ s ∈ sectors, st.cache.lookup s = none) :
    ∃ st', Misses st sectors st' ∧ st'.Good True n [] := by
  induction sectors using List.reverseRecOn with
  | nil => exact ⟨st, .nil, good⟩
  | append_singleton sectors sector ih =>
    have last : sector ∈ sectors ++ [sector] := by simp
    rw [List.length_append, List.length_singleton] at few
    obtain ⟨nodup, -, fresh⟩ := List.nodup_append.1 nodup
    obtain ⟨st₁, misses, good₁⟩ := ih (by omega) nodup
      (fun s mem => inside s (List.mem_append_left _ mem))
      fun s mem => absent s (List.mem_append_left _ mem)
    have missed : st₁.cache.lookup sector = none :=
      misses.lookup_eq_none good.wellFormed ready (by omega)
        (fun mem => fresh sector mem sector (List.mem_singleton_self sector) rfl)
        (absent sector last)
    obtain ⟨b, st₂, run, same, -⟩ := (ends_read good₁ (inside sector last) 0 4).returns (by
      rintro e st' (stops | ⟨⟨v, -, far⟩, -⟩)
      · exact stops.not_working trivial
      · exact far (by decide))
    exact ⟨st₂, .snoc misses missed run, same.good⟩

/-- Part of sector 6 was written, everything was written back, and sector 5 was read. -/
theorem exists_mixed : ∃ st b₁ b₂, Used 3 (Disk.memory 8) {} st [] (∅ \ {6}) ∧
    st.cache.slots = #[⟨some ⟨6, .clean, b₁⟩, 0⟩, ⟨some ⟨5, .accessed, b₂⟩, 0⟩, {}] ∧
    st.disk.Working 8 := by
  obtain ⟨cache, hc, explicit⟩ : ∃ cache, Cache.create 3 = .ok cache ∧
      cache = ⟨#[{}, {}, {}], Queue.ofList [0, 1, 2], {}⟩ := ⟨_, rfl, rfl⟩
  have absent : ∀ s, cache.lookup s = none := (slot_of_create hc).2.2.2
  have missed : (cache.index.insert 6 0)[(5 : SectorId)]? = none :=
    absent_insert (by decide) (absent 5)
  obtain ⟨st₁, st₂, st₃, b, b₁, b₂, wrote, flushed, read, slots, works⟩ : ∃ st₁ st₂ st₃ b b₁ b₂,
      write 6 8 #[1, 2] ⟨Disk.memory 8, cache, {}⟩ = .ok () st₁ ∧ flushAll st₁ = .ok 1 st₂ ∧
      read 5 0 4 st₂ = .ok b st₃ ∧ st₃.cache.slots =
        #[⟨some ⟨6, .clean, b₁⟩, 0⟩, ⟨some ⟨5, .accessed, b₂⟩, 0⟩, {}] ∧ st₃.disk.Working 8 := by
    subst explicit
    exact ⟨_, _, _, _, _, _, (write_of_absent (absent 6) (by decide) (by decide)).trans rfl, rfl,
      (read_of_absent (by exact missed) (by decide)).trans rfl, rfl, nofun, by decide, rfl⟩
  have used : Used 3 (Disk.memory 8) {} st₃ [] (∅ \ {6}) :=
    .answered (.read 5 0 4) (.answered .flushAll (.answered (.write 6 8 #[1, 2]) (.start hc)
      trivial wrote) trivial flushed) trivial read
  exact ⟨st₃, b₁, b₂, used, slots, works⟩

/-- In a cache without dirty slots and without slots in use, up to as many sectors as there are
slots can be read one after the other: if each one was not in the cache when it was read, they are
all different and none of them replaced another one. If they are as many as there are slots, they
are what is in the cache then. -/
theorem Used.renewed {capacity : Nat} {disk : Disk} {log : Log} {held : List Pin}
    {doubt : Set SectorId} (h : Used capacity disk log st held doubt)
    (clean : ∀ j, (st.cache.slot j).isDirty = false) (unused : ∀ j, (st.cache.slot j).pins = 0)
    (misses : Misses st sectors st') :
    (sectors.length ≤ capacity → sectors.Nodup ∧ ∀ s ∈ sectors, s ∈ st'.cache.resident) ∧
    (sectors.length = capacity → st'.cache.resident.Perm sectors) := by
  have sound := h.sound
  have ready : ∀ j, (st.cache.slot j).isReady = true := by
    intro j
    simp [Slot.isReady, clean j, unused j]
  have size := sound.size
  constructor
  · intro few
    obtain ⟨rotating, -⟩ := misses.rotating sound.wellFormed ready (by omega)
    exact ⟨rotating.nodup, fun s mem => rotating.wellFormed.mem_resident (rotating.resident s mem)⟩
  · intro all
    obtain ⟨rotating, same⟩ := misses.rotating sound.wellFormed ready (by omega)
    exact rotating.resident_perm (by omega)

/-- Three reads renew a cache of three slots, one of which is as on the disk, one used lately and
one empty. -/
theorem renewed_of_mixed : ∃ st st' b₁ b₂, Used 3 (Disk.memory 8) {} st [] (∅ \ {6}) ∧
    st.cache.slots = #[⟨some ⟨6, .clean, b₁⟩, 0⟩, ⟨some ⟨5, .accessed, b₂⟩, 0⟩, {}] ∧
    (∀ j, (st.cache.slot j).isDirty = false) ∧ (∀ j, (st.cache.slot j).pins = 0) ∧
    Misses st [1, 2, 3] st' ∧ st'.cache.resident.Perm [1, 2, 3] := by
  obtain ⟨st, b₁, b₂, used, slots, works⟩ := exists_mixed
  have sound := used.sound
  have clean : ∀ j, (st.cache.slot j).isDirty = false := by
    intro j
    rw [Cache.slot, slots]
    rcases j with _ | _ | _ | j <;> rfl
  have unused : ∀ j, (st.cache.slot j).pins = 0 := sound.counted
  have resident : st.cache.resident = [6, 5] := by
    rw [Cache.resident, slots]
    rfl
  have mem : ∀ s, st.cache.lookup s ≠ none → s ∈ ([6, 5] : List SectorId) := fun s found =>
    resident ▸ sound.wellFormed.mem_resident found
  have known : st.Sound 3 [] ∅ := sound.mono fun _ doubted => doubted.1
  have good : st.Good True 8 [] := known.good (fun _ => works) fun _ s i found =>
    (by simp : ∀ s ∈ ([6, 5] : List SectorId), s.toNat < 8) s (mem s (by simp [found]))
  have absent : ∀ s ∈ ([1, 2, 3] : List SectorId), st.cache.lookup s = none := by
    intro s hs
    by_contra found
    exact (by simp : ∀ s ∈ ([1, 2, 3] : List SectorId), s ∉ ([6, 5] : List SectorId)) s hs
      (mem s found)
  have few : ([1, 2, 3] : List SectorId).length ≤ st.cache.slots.size := Nat.le_of_eq sound.size.symm
  obtain ⟨st', misses, -⟩ := exists_misses good
    (fun j => by simp [Slot.isReady, clean j, unused j]) few (by simp) (by simp) absent
  exact ⟨st, st', b₁, b₂, used, slots, clean, unused, misses,
    (used.renewed clean unused misses).2 rfl⟩

end Storage

end SectorVolume
