import SectorVolume.Volume.Basic

/-!
# Handles

A client gets a handle with every open and gives it up with a close. A node is open as often as
there are handles of it. A handle is lost when its close fails before the node knew of it: the
client may not use it any more, and the node stays open for it.
-/

namespace SectorVolume

/-- The handles of a client, by the node that they lead to. -/
structure Handles where
  /-- Those that can be used, each as often as the client has it. -/
  ids : List NodeId
  /-- Those whose close failed. -/
  lost : List NodeId
  /-- Those by which an inode was removed. -/
  removed : List NodeId

namespace Handles

/-- No handles. -/
def empty : Handles := ⟨[], [], []⟩

/-- One more handle of a node. -/
def add (h : Handles) (id : NodeId) : Handles := { h with ids := id :: h.ids }

/-- A handle is given up. -/
def drop (h : Handles) (id : NodeId) : Handles := { h with ids := h.ids.erase id }

/-- A handle is lost. -/
def lose (h : Handles) (id : NodeId) : Handles :=
  { h with ids := h.ids.erase id, lost := id :: h.lost }

/-- An inode is removed. -/
def remove (h : Handles) (id : NodeId) : Handles := { h with removed := id :: h.removed }

/-- Nobody has the removed inode of node `id` open any more. -/
def Dead (h : Handles) (id : NodeId) : Prop := id ∈ h.removed ∧ id ∉ h.ids ∧ id ∉ h.lost

instance (h : Handles) (id : NodeId) : Decidable (h.Dead id) :=
  inferInstanceAs (Decidable (_ ∧ _ ∧ _))

/-- The nodes are open as often as there are handles of them, and know which of them were removed.
-/
structure Counts (h : Handles) (node : NodeId → Node) : Prop where
  opens : ∀ id, (node id).opens = h.ids.count id + h.lost.count id
  removed : ∀ id, (node id).removed = true ↔ id ∈ h.removed

namespace Counts

variable {h : Handles} {node : NodeId → Node} {id : NodeId} {n : Node}

theorem opens_pos (c : h.Counts node) (hid : id ∈ h.ids) : 0 < (node id).opens := by
  have pos := List.count_pos_iff.2 hid
  rw [c.opens]
  omega

theorem opens_eq_zero_iff (c : h.Counts node) (id : NodeId) :
    (node id).opens = 0 ↔ id ∉ h.ids ∧ id ∉ h.lost := by
  rw [c.opens, Nat.add_eq_zero_iff, List.count_eq_zero, List.count_eq_zero]

/-- The node of a dead inode. -/
theorem dead_iff (c : h.Counts node) (id : NodeId) :
    h.Dead id ↔ (node id).opens = 0 ∧ (node id).removed = true := by
  rw [c.opens_eq_zero_iff, c.removed]
  exact and_comm

/-- One node changes and so do the handles of it. -/
theorem update (c : h.Counts node) {h' : Handles}
    (opens : n.opens = h'.ids.count id + h'.lost.count id)
    (removed : n.removed = true ↔ id ∈ h'.removed)
    (counts : ∀ j, j ≠ id → h'.ids.count j + h'.lost.count j = h.ids.count j + h.lost.count j)
    (others : ∀ j, j ≠ id → (j ∈ h'.removed ↔ j ∈ h.removed)) :
    h'.Counts fun j => if j = id then n else node j := by
  constructor
  · intro j
    by_cases e : j = id
    · rw [if_pos e, e]
      exact opens
    · rw [if_neg e, counts j e]
      exact c.opens j
  · intro j
    by_cases e : j = id
    · rw [if_pos e, e]
      exact removed
    · rw [if_neg e, others j e]
      exact c.removed j

theorem same (c : h.Counts node) (opens : n.opens = (node id).opens)
    (removed : n.removed = (node id).removed) : h.Counts fun j => if j = id then n else node j :=
  c.update (opens.trans (c.opens id)) (removed ▸ c.removed id) (fun _ _ => rfl) fun _ _ => .rfl

theorem add (c : h.Counts node) (opens : n.opens = (node id).opens + 1)
    (removed : n.removed = (node id).removed) :
    (h.add id).Counts fun j => if j = id then n else node j := by
  refine c.update ?_ (removed ▸ c.removed id) (fun j ne => ?_) fun _ _ => .rfl
  · have count : (h.add id).ids.count id = h.ids.count id + 1 := List.count_cons_self
    rw [opens, c.opens, count]
    exact Nat.add_right_comm ..
  · have count : (h.add id).ids.count j = h.ids.count j := List.count_cons_of_ne fun e => ne e.symm
    rw [count]
    rfl

/-- The number of handles of node `j` after one of node `id` was given up. -/
theorem count_drop (hid : id ∈ h.ids) (j : NodeId) :
    (h.drop id).ids.count j + (if j = id then 1 else 0) = h.ids.count j := by
  have count := (List.perm_cons_erase hid).count_eq j
  rw [List.count_cons] at count
  unfold Handles.drop
  by_cases e : j = id
  · rw [if_pos e]
    rw [if_pos (by rw [e, beq_self_eq_true])] at count
    exact count.symm
  · rw [if_neg e]
    rw [beq_false_of_ne fun e' => e e'.symm, if_neg (by decide)] at count
    exact count.symm

theorem drop (c : h.Counts node) (hid : id ∈ h.ids) (opens : n.opens = (node id).opens - 1)
    (removed : n.removed = (node id).removed) :
    (h.drop id).Counts fun j => if j = id then n else node j := by
  refine c.update ?_ (removed ▸ c.removed id) (fun j ne => ?_) fun _ _ => .rfl
  · have count := count_drop hid id
    rw [if_pos rfl] at count
    rw [opens, c.opens]
    show _ = _ + h.lost.count id
    omega
  · have count := count_drop hid j
    rw [if_neg ne] at count
    show _ + h.lost.count j = _
    omega

theorem lose (c : h.Counts node) (hid : id ∈ h.ids) (opens : n.opens = (node id).opens)
    (removed : n.removed = (node id).removed) :
    (h.lose id).Counts fun j => if j = id then n else node j := by
  have ids : (h.lose id).ids = (h.drop id).ids := rfl
  refine c.update ?_ (removed ▸ c.removed id) (fun j ne => ?_) fun _ _ => .rfl
  · have count := count_drop hid id
    have lost : (h.lose id).lost.count id = h.lost.count id + 1 := List.count_cons_self
    rw [if_pos rfl] at count
    rw [opens, c.opens, ids, lost]
    omega
  · have count := count_drop hid j
    have lost : (h.lose id).lost.count j = h.lost.count j :=
      List.count_cons_of_ne fun e => ne e.symm
    rw [if_neg ne] at count
    rw [ids, lost]
    omega

theorem remove (c : h.Counts node) (opens : n.opens = (node id).opens) (removed : n.removed = true) :
    (h.remove id).Counts fun j => if j = id then n else node j := by
  refine c.update (opens.trans (c.opens id)) ⟨fun _ => List.mem_cons_self, fun _ => removed⟩
    (fun _ _ => rfl) fun j ne => ⟨fun hj => ?_, List.mem_cons_of_mem _⟩
  exact (List.mem_cons.1 hj).resolve_left ne

end Counts

end Handles

end SectorVolume
