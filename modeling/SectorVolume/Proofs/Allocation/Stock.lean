import Mathlib.Data.List.Nodup
import Mathlib.Data.List.Perm.Subperm
import Mathlib.Logic.Function.Basic
import SectorVolume.Failure

/-!
# What a space has to offer

A stock is a space as its users see it: the content of the sectors, which of them are free, which
the allocator keeps for itself, and how many transfers failed. `Took` says that some free sectors
were taken and that, beside these, only the content of given sectors changed; `Gave` that some
sectors were given back. When transfers fail, free sectors may be lost, but none is gained. A sector
that is free in the end may have been taken and given back on the way, but then it is cleared.
-/

namespace SectorVolume

/-- What is promised about the disk: that transfers with its first `sectors` sectors succeed, if it
`works`. -/
class Promise where
  works : Prop
  sectors : Nat

/-- A space as its users see it. -/
structure Stock where
  content : SectorId → Sector
  free : SectorId → Prop
  /-- The sectors that the allocator keeps for itself. -/
  own : SectorId → Prop
  /-- The sectors from this number on are not managed. -/
  bound : Nat
  failures : Nat

namespace Stock

variable {X Y : SectorId → Prop} {ids ids' : List SectorId} {a b c : Stock} {s id : SectorId}

/-- The sectors that users can have. -/
def Usable [Promise] (a : Stock) (id : SectorId) : Prop :=
  id ≠ 0 ∧ ¬ a.own id ∧ id.toNat < a.bound ∧ id.toNat < Promise.sectors

/-- The sector is one that users can have, and it is taken. -/
def Held [Promise] (a : Stock) (id : SectorId) : Prop := a.Usable id ∧ ¬ a.free id

theorem Usable.lt [Promise] (h : a.Usable id) : id.toNat < Promise.sectors := h.2.2.2

/-- What nothing changes. -/
structure Follows (a b : Stock) : Prop where
  own : b.own = a.own
  bound : b.bound = a.bound
  failures : a.failures ≤ b.failures

/-- The stock with another content of one sector. -/
def put (a : Stock) (id : SectorId) (b : Sector) : Stock :=
  { a with content := Function.update a.content id b }

theorem put_self {b : Sector} (h : a.content id = b) : a.put id b = a := by
  subst h
  unfold put
  rw [Function.update_eq_self]

theorem content_put (a : Stock) (id : SectorId) (b : Sector) : (a.put id b).content id = b :=
  Function.update_self ..

theorem content_put_of_ne {b : Sector} (h : s ≠ id) : (a.put id b).content s = a.content s :=
  Function.update_of_ne h ..

/-- The content of a sector stayed, or it was cleared. -/
def Dormant (a b : Stock) (s : SectorId) : Prop :=
  b.content s = a.content s ∨ b.content s = Sector.zero

theorem Dormant.trans (h : Dormant a b s) (h' : Dormant b c s) : Dormant a c s := by
  rcases h' with same | zero
  · rcases h with same' | zero'
    · exact .inl (same.trans same')
    · exact .inr (same.trans zero')
  · exact .inr zero

/-- No sector. -/
def nowhere (_ : SectorId) : Prop := False

/-- The sectors `ids` were taken. The content of taken sectors changed only in `X`, and sectors that
are still free were at most cleared. -/
structure Took (X : SectorId → Prop) (ids : List SectorId) (a b : Stock) : Prop
    extends Follows a b where
  nodup : ids.Nodup
  free : ∀ id ∈ ids, a.free id
  left : ∀ id, b.free id → a.free id ∧ id ∉ ids
  unleaked : b.failures = a.failures → ∀ id, a.free id → id ∉ ids → b.free id
  frame : ∀ s, ¬ a.free s → ¬ a.own s → ¬ X s → b.content s = a.content s
  idle : ∀ s, b.free s → ¬ a.own s → ¬ X s → Dormant a b s

/-- The sectors `ids` were taken. The content changed only in the sectors of the allocator. -/
structure Takes (ids : List SectorId) (a b : Stock) : Prop extends Took nowhere ids a b where
  still : ∀ s, ¬ a.own s → b.content s = a.content s

/-- The sectors `ids` were given back, or only some of them if transfers failed. -/
structure Gave (ids : List SectorId) (a b : Stock) : Prop extends Follows a b where
  kept : ∀ id, a.free id → b.free id
  back : ∀ id, b.free id → a.free id ∨ id ∈ ids
  all : b.failures = a.failures → ∀ id ∈ ids, b.free id
  frame : ∀ s, ¬ a.own s → b.content s = a.content s

/-- A transfer failed from `a` to `b`, and that is the answer. -/
def Broke (a b : Stock) (c : Fault) : Prop := (∃ cause, c = .device cause) ∧ a.failures < b.failures

/-- There are fewer than `count` free sectors. -/
def Short (a : Stock) (count : Nat) : Prop :=
  ∀ ids : List SectorId, ids.Nodup → (∀ id ∈ ids, a.free id) → ids.length < count

/-- `count` sectors were asked for, and there are fewer, unless transfers failed. -/
def Lacks (a b : Stock) (count : Nat) : Prop := b.Short count ∨ a.failures < b.failures

/-- No free sector but `ids` was lost, unless more than one transfer failed. -/
def Mended (ids : List SectorId) (a b : Stock) : Prop :=
  b.failures ≤ a.failures + 1 → ∀ id, a.free id → id ∈ ids ∨ b.free id

/-- There were not `count` free sectors, or a transfer failed. -/
def Denies (count : Nat) (a b : Stock) (c : Fault) : Prop :=
  c = .exhausted count ∧ a.Lacks b count ∨ Broke a b c ∧ Mended [] a b

/-- An action that failed left the same sectors free, unless a transfer failed while it was giving
back what it had taken. -/
structure Restores (a b : Stock) (c : Fault) : Prop where
  none : ∀ id, b.free id → a.free id
  all : b.failures = a.failures ∨ (∃ cause, c = .device cause) ∧ b.failures ≤ a.failures + 1 →
    ∀ id, a.free id → b.free id

/-- Some sectors, at most `limit`, were asked for and there were fewer, or a transfer failed. -/
def Stopped (limit : Nat) (a b : Stock) (c : Fault) : Prop :=
  (∃ count ≤ limit, c = .exhausted count ∧ a.Lacks b count) ∨ Broke a b c

theorem Short.of_free {n : Nat} (h : a.Short n) (free : ∀ id, b.free id → a.free id) : b.Short n :=
  fun ids nodup all => h ids nodup fun id hid => free id (all id hid)

/-- All free sectors are on the list. -/
theorem short_of_subset {n : Nat} (sub : ∀ id, a.free id → id ∈ ids) (lt : ids.length < n) :
    a.Short n := fun _ nodup all =>
  Nat.lt_of_le_of_lt (nodup.subperm fun id hid => sub id (all id hid)).length_le lt

theorem Lacks.trans {n : Nat} (h : a.failures ≤ b.failures) (h' : Lacks b c n) : Lacks a c n :=
  h'.imp_right (Nat.lt_of_le_of_lt h)

theorem Lacks.of_free {n : Nat} (h : Lacks a b n) (failures : b.failures ≤ c.failures)
    (free : ∀ id, c.free id → b.free id) : Lacks a c n :=
  h.imp (fun short => short.of_free free) fun lt => Nat.lt_of_lt_of_le lt failures

theorem Short.mono {n n' : Nat} (h : a.Short n) (le : n ≤ n') : a.Short n' :=
  fun ids nodup all => Nat.lt_of_lt_of_le (h ids nodup all) le

theorem Lacks.mono {n n' : Nat} (h : Lacks a b n) (le : n ≤ n') : Lacks a b n' :=
  h.imp_left fun short => short.mono le

theorem Broke.trans {e : Fault} (h : a.failures ≤ b.failures) (h' : Broke b c e) : Broke a c e :=
  ⟨h'.1, Nat.lt_of_le_of_lt h h'.2⟩

theorem Broke.of_le {e : Fault} (h : Broke a b e) (failures : b.failures ≤ c.failures) :
    Broke a c e :=
  ⟨h.1, Nat.lt_of_lt_of_le h.2 failures⟩

theorem Broke.stopped {n : Nat} {e : Fault} (h : Broke a b e) : Stopped n a b e := .inr h

theorem Denies.stopped {n n' : Nat} {e : Fault} (h : Denies n a b e) (le : n ≤ n') :
    Stopped n' a b e :=
  h.imp (fun short => ⟨n, le, short⟩) And.left

theorem Stopped.mono {n n' : Nat} {e : Fault} (h : Stopped n a b e) (le : n ≤ n') :
    Stopped n' a b e :=
  h.imp_left fun ⟨count, le', short⟩ => ⟨count, Nat.le_trans le' le, short⟩

theorem Stopped.trans {n : Nat} {e : Fault} (h : a.failures ≤ b.failures) (h' : Stopped n b c e) :
    Stopped n a c e :=
  h'.imp (fun ⟨count, le, e, short⟩ => ⟨count, le, e, short.trans h⟩) fun broke => broke.trans h

theorem Stopped.lacks {n : Nat} {e : Fault} (h : Stopped n a b e) : Lacks a b n :=
  h.elim (fun ⟨_, le, _, short⟩ => short.mono le) fun broke => .inr broke.2

/-- What is done later takes no sector back. -/
theorem Stopped.of_free {n : Nat} {e : Fault} (h : Stopped n a b e)
    (failures : b.failures ≤ c.failures) (free : ∀ id, c.free id → b.free id) : Stopped n a c e :=
  h.imp (fun ⟨count, le, e, short⟩ => ⟨count, le, e, short.of_free failures free⟩)
    fun broke => broke.of_le failures

theorem Follows.refl (a : Stock) : Follows a a := ⟨rfl, rfl, Nat.le_refl _⟩

theorem Follows.trans (h : Follows a b) (h' : Follows b c) : Follows a c :=
  ⟨h'.own.trans h.own, h'.bound.trans h.bound, Nat.le_trans h.failures h'.failures⟩

theorem Follows.usable [Promise] (h : Follows a b) : b.Usable id ↔ a.Usable id := by
  unfold Usable
  rw [h.own, h.bound]

namespace Took

theorem refl (a : Stock) : Took X [] a a :=
  ⟨.refl a, List.nodup_nil, nofun, fun _ h => ⟨h, List.not_mem_nil⟩, fun _ _ h _ => h,
    fun _ _ _ _ => rfl, fun _ _ _ _ => .inl rfl⟩

/-- Of a larger set only the sectors count that were not taken on the way. -/
theorem mono (h : Took X ids a b) (hX : ∀ s, (a.free s → b.free s) → X s → Y s) : Took Y ids a b :=
  { h with
    frame := fun s hf ho hY => h.frame s hf ho fun hs => hY (hX s (fun free => absurd free hf) hs)
    idle := fun s hf ho hY => h.idle s hf ho fun hs => hY (hX s (fun _ => hf) hs) }

/-- Writing the content that was there changes nothing. -/
theorem same (h : Took X ids a b) (hX : ∀ s, X s → b.content s = a.content s) :
    Took nowhere ids a b :=
  { h with
    frame := fun s hf ho _ => by
      by_cases hs : X s
      · exact hX s hs
      · exact h.frame s hf ho hs
    idle := fun s hf ho _ => by
      by_cases hs : X s
      · exact .inl (hX s hs)
      · exact h.idle s hf ho hs }

theorem perm (h : Took X ids a b) (hp : ids.Perm ids') : Took X ids' a b :=
  { h with
    nodup := hp.nodup_iff.1 h.nodup
    free := fun id hid => h.free id (hp.mem_iff.2 hid)
    left := fun id hid => ⟨(h.left id hid).1, fun hm => (h.left id hid).2 (hp.mem_iff.2 hm)⟩
    unleaked := fun e id hf hm => h.unleaked e id hf fun hm' => hm (hp.mem_iff.1 hm') }

theorem held [Promise] (h : Took X ids a b) (hs : a.Held s) : b.Held s :=
  ⟨h.usable.2 hs.1, fun hf => hs.2 (h.left s hf).1⟩

theorem held_of_mem [Promise] (h : Took X ids a b) (usable : ∀ id, a.free id → a.Usable id)
    (hs : s ∈ ids) : b.Held s := ⟨h.usable.2 (usable s (h.free s hs)), fun hf => (h.left s hf).2 hs⟩

theorem content [Promise] (h : Took X ids a b) (hs : a.Held s) (hX : ¬ X s) : b.content s = a.content s :=
  h.frame s hs.2 hs.1.2.1 hX

/-- What was taken first stays taken, and may be changed later on. -/
theorem trans (h : Took X ids a b) (h' : Took Y ids' b c)
    (hY : ∀ s, (a.free s → c.free s) → Y s → X s) : Took X (ids ++ ids') a c := by
  refine ⟨h.toFollows.trans h'.toFollows, ?_, ?_, ?_, ?_, ?_, ?_⟩
  · refine List.nodup_append.2 ⟨h.nodup, h'.nodup, fun x hx y hy e => ?_⟩
    subst e
    exact (h.left _ (h'.free _ hy)).2 hx
  · intro id hid
    rcases List.mem_append.1 hid with hid | hid
    · exact h.free id hid
    · exact (h.left id (h'.free id hid)).1
  · intro id hid
    obtain ⟨freeb, notin'⟩ := h'.left id hid
    obtain ⟨freea, notin⟩ := h.left id freeb
    exact ⟨freea, fun hmem => (List.mem_append.1 hmem).elim notin notin'⟩
  · intro e id hid notin
    have le := h.failures
    have le' := h'.failures
    have freeb := h.unleaked (by omega) id hid fun hmem => notin (List.mem_append_left _ hmem)
    exact h'.unleaked (by omega) id freeb fun hmem => notin (List.mem_append_right _ hmem)
  · intro s hf ho hX
    have hf' : ¬ b.free s := fun hs => hf (h.left s hs).1
    have ho' : ¬ b.own s := by rwa [h.own]
    rw [h'.frame s hf' ho' fun hs => hX (hY s (fun free => absurd free hf) hs), h.frame s hf ho hX]
  · intro s hf ho hX
    have ho' : ¬ b.own s := by rwa [h.own]
    exact (h.idle s (h'.left s hf).1 ho hX).trans
      (h'.idle s hf ho' fun hs => hX (hY s (fun _ => hf) hs))

theorem trans_nil (h : Took X ids a b) (h' : Took Y [] b c)
    (hY : ∀ s, (a.free s → c.free s) → Y s → X s) : Took X ids a c := by
  simpa using h.trans h' hY

theorem nil_trans (h : Took X [] a b) (h' : Took Y ids b c)
    (hY : ∀ s, (a.free s → c.free s) → Y s → X s) : Took X ids a c := by
  simpa using h.trans h' hY

/-- A sector that was taken is not free later on. -/
theorem not_kept (h : Took X ids a b) (h' : Took Y ids' b c) (hs : s ∈ ids) :
    ¬ (a.free s → c.free s) := fun kept =>
  (h.left s (h'.left s (kept (h.free s hs))).1).2 hs

/-- Only sectors that were taken are written. -/
theorem fill (h : Took X ids a b) (h' : Took (· ∈ ids) [] b c) : Took X ids a c :=
  h.trans_nil h' fun _ kept hs => absurd kept (h.not_kept h' hs)

/-- Giving one sector a new content on both sides. -/
theorem put (h : Took X ids a b) {u u' : Sector} (hX : u ≠ u' → X id) :
    Took X ids (a.put id u) (b.put id u') := by
  have here : ∀ {s}, ¬ X s → s = id → (b.put id u').content s = (a.put id u).content s := by
    rintro s hs rfl
    rw [content_put, content_put]
    by_contra ne
    exact hs (hX fun e => ne e.symm)
  refine ⟨⟨h.own, h.bound, h.failures⟩, h.nodup, h.free, h.left, h.unleaked, fun s hf ho hs => ?_,
    fun s hf ho hs => ?_⟩
  · by_cases e : s = id
    · exact here hs e
    · rw [content_put_of_ne e, content_put_of_ne e]
      exact h.frame s hf ho hs
  · by_cases e : s = id
    · exact .inl (here hs e)
    · unfold Dormant
      rw [content_put_of_ne e, content_put_of_ne e]
      exact h.idle s hf ho hs

/-- Sectors that were taken may be lost when a transfer failed. -/
theorem lose (h : Took X ids a b) (failed : a.failures < b.failures) : Took X [] a b :=
  { h with
    nodup := List.nodup_nil
    free := nofun
    left := fun id hid => ⟨(h.left id hid).1, List.not_mem_nil⟩
    unleaked := fun e => absurd e (Nat.ne_of_gt failed) }

/-- Sectors that were taken are given back, and all of them unless a transfer failed. -/
theorem undo (h : Took X ids a b) (h' : Gave ids' b c) (sub : ids' ⊆ ids)
    (all : c.failures = a.failures → ids ⊆ ids')
    (dormant : ∀ s ∈ ids', ¬ a.own s → ¬ X s → Dormant a b s) : Took X [] a c := by
  refine ⟨h.toFollows.trans h'.toFollows, List.nodup_nil, nofun, ?_, ?_, ?_, ?_⟩
  · intro id hid
    refine ⟨?_, List.not_mem_nil⟩
    rcases h'.back id hid with hid | hid
    · exact (h.left id hid).1
    · exact h.free id (sub hid)
  · intro e id hid _
    have le := h.failures
    have le' := h'.failures
    by_cases hmem : id ∈ ids
    · exact h'.all (by omega) id (all e hmem)
    · exact h'.kept id (h.unleaked (by omega) id hid hmem)
  · intro s hf ho hX
    rw [h'.frame s (by rwa [h.own]), h.frame s hf ho hX]
  · intro s hf ho hX
    refine Dormant.trans (b := b) ?_ (.inl (h'.frame s (by rwa [h.own])))
    rcases h'.back s hf with hf | hmem
    · exact h.idle s hf ho hX
    · exact dormant s hmem ho hX

/-- What was taken before the transfer that failed may be lost, but nothing else. -/
theorem mended (h : Took X ids a b) (failed : b.failures < c.failures) (h' : Mended [] b c) :
    Mended ids a c := by
  intro one id free
  have le := h.failures
  by_cases hid : id ∈ ids
  · exact .inl hid
  · have free' := h.unleaked (by omega) id free hid
    exact .inr ((h' (by omega) id free').resolve_left List.not_mem_nil)

/-- Whatever was written to the sectors that are given back. -/
theorem undone (h : Took nowhere ids a b) (h' : Gave ids' b c) (sub : ids' ⊆ ids)
    (all : c.failures = a.failures → ids ⊆ ids') : Took (· ∈ ids) [] a c :=
  (h.mono fun _ _ no => no.elim).undo h' sub all fun _ hs _ notin => absurd (sub hs) notin

end Took

namespace Takes

theorem refl (a : Stock) : Takes [] a a := ⟨.refl a, fun _ _ => rfl⟩

end Takes

/-- What was denied left no sector taken. -/
theorem Denies.restores {n : Nat} {e : Fault} (h : Denies n a b e) (took : Took X [] a b) :
    Restores a b e := by
  refine ⟨fun id free => (took.left id free).1, ?_⟩
  rintro (clean | ⟨⟨cause, rfl⟩, one⟩) id free
  · exact took.unleaked clean id free List.not_mem_nil
  · rcases h with ⟨e, -⟩ | ⟨-, mended⟩
    · cases e
    · exact (mended one id free).resolve_left List.not_mem_nil

namespace Mended

theorem of_kept (kept : ∀ id, a.free id → b.free id) : Mended ids a b := fun _ id free =>
  .inr (kept id free)

theorem kept (h : Mended ids a b) (failures : b.failures ≤ c.failures)
    (kept : ∀ id, b.free id → c.free id) : Mended ids a c := fun one id free =>
  (h (by omega) id free).imp_right (kept id)

/-- What was taken is given back after the transfer that failed. -/
theorem gave (h : Mended ids a b) (failed : a.failures < b.failures) (gave : Gave ids b c) :
    Mended [] a c := by
  intro one id free
  have le := gave.failures
  rcases h (by omega) id free with hid | free
  · exact .inr (gave.all (by omega) id hid)
  · exact .inr (gave.kept id free)

/-- Two transfers that failed are more than one. -/
theorem of_lt (failed : a.failures < b.failures) (failed' : b.failures < c.failures) :
    Mended ids a c := fun one => absurd one (by omega)

end Mended

namespace Gave

theorem refl (a : Stock) : Gave [] a a :=
  ⟨.refl a, fun _ h => h, fun _ h => .inl h, fun _ => nofun, fun _ _ => rfl⟩

theorem trans (h : Gave ids a b) (h' : Gave ids' b c) : Gave (ids ++ ids') a c := by
  refine ⟨h.toFollows.trans h'.toFollows, fun id hid => h'.kept id (h.kept id hid), ?_, ?_, ?_⟩
  · intro id hid
    rcases h'.back id hid with hid | hid
    · exact (h.back id hid).imp_right (List.mem_append_left _)
    · exact .inr (List.mem_append_right _ hid)
  · intro e id hid
    have le := h.failures
    have le' := h'.failures
    rcases List.mem_append.1 hid with hid | hid
    · exact h'.kept id (h.all (by omega) id hid)
    · exact h'.all (by omega) id hid
  · intro s ho
    rw [h'.frame s (by rwa [h.own]), h.frame s ho]

theorem mono (h : Gave ids a b) (sub : ids ⊆ ids') (failed : a.failures < b.failures) :
    Gave ids' a b :=
  { h with
    back := fun id hid => (h.back id hid).imp_right fun hid => sub hid
    all := fun e => absurd e (Nat.ne_of_gt failed) }

theorem held [Promise] (h : Gave ids a b) (hs : a.Held s) (notin : s ∉ ids) : b.Held s :=
  ⟨h.usable.2 hs.1, fun hf => (h.back s hf).elim hs.2 notin⟩

theorem content [Promise] (h : Gave ids a b) (hs : a.Usable s) : b.content s = a.content s :=
  h.frame s hs.2.1

end Gave

/-- Nothing was done, outside `X`, to what is neither free nor the allocator's own. -/
structure Spares (X : SectorId → Prop) (a b : Stock) : Prop extends Follows a b where
  kept : ∀ id, ¬ a.free id → ¬ X id → ¬ b.free id
  content : ∀ id, ¬ a.free id → ¬ a.own id → ¬ X id → b.content id = a.content id
  idle : ∀ id, b.free id → ¬ a.own id → ¬ X id → Dormant a b id

theorem Took.spares (h : Took X ids a b) : Spares X a b :=
  ⟨h.toFollows, fun id taken _ free => taken (h.left id free).1, h.frame, h.idle⟩

theorem Gave.spares (h : Gave ids a b) : Spares (· ∈ ids) a b :=
  ⟨h.toFollows, fun id taken notin free => (h.back id free).elim taken notin,
    fun id _ own _ => h.frame id own, fun id _ own _ => .inl (h.frame id own)⟩

namespace Spares

theorem held [Promise] (h : Spares X a b) (hs : a.Held s) (notin : ¬ X s) : b.Held s :=
  ⟨h.usable.2 hs.1, h.kept s hs.2 notin⟩

theorem content_held [Promise] (h : Spares X a b) (hs : a.Held s) (notin : ¬ X s) :
    b.content s = a.content s := h.content s hs.2 hs.1.2.1 notin

/-- What users cannot have stays as it is, the allocator's own sectors apart. -/
theorem outside [Promise] (h : Spares X a b) (proper : ∀ id, a.free id → a.Usable id)
    (hX : ∀ id, X id → a.Usable id) (own : ¬ a.own s) (unusable : ¬ a.Usable s) :
    b.content s = a.content s :=
  h.content s (fun free => unusable (proper s free)) own fun hs => unusable (hX s hs)

theorem mono (h : Spares X a b) (hX : ∀ s, X s → Y s) : Spares Y a b :=
  ⟨h.toFollows, fun id taken notin => h.kept id taken fun hid => notin (hX id hid),
    fun id taken own notin => h.content id taken own fun hid => notin (hX id hid),
    fun id free own notin => h.idle id free own fun hid => notin (hX id hid)⟩

theorem trans (h : Spares X a b) (h' : Spares X b c) : Spares X a c := by
  refine ⟨h.toFollows.trans h'.toFollows,
    fun id taken notin => h'.kept id (h.kept id taken notin) notin, fun id taken own notin => ?_,
    fun id free own notin => ?_⟩
  · rw [h'.content id (h.kept id taken notin) (by rwa [h.own]) notin, h.content id taken own notin]
  · have between := Classical.not_not.1 fun taken => h'.kept id taken notin free
    exact (h.idle id between own notin).trans (h'.idle id free (by rwa [h.own]) notin)

end Spares

end Stock

end SectorVolume
