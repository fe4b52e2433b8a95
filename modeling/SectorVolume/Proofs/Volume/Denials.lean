import SectorVolume.Proofs.Volume.Frames

/-!
# Who denies writes

Writes to a node are denied as often as `denyWrites` was answered more often than `allowWrites`; no
other request has to do with it.
-/

namespace SectorVolume

open SectorVolume.Action

namespace Volume

variable {j : NodeId} {count : Nat}

/-- Writes to node `j` are denied `count` times. -/
def DeniedTimes (j : NodeId) (count : Nat) (v : Volume) : Prop := (v.node j).denials = count

theorem denials_modify (nodes : Array Node) {k : NodeId} {f : Node → Node}
    (h : k ≠ j ∨ ∀ n, (f n).denials = n.denials) :
    ((nodes.modify k f).getD j default).denials = (nodes.getD j default).denials := by
  by_cases inside : k < nodes.size
  · rw [getD_modify nodes k j f inside]
    by_cases e : j = k
    · rw [if_pos e, h.resolve_left fun ne => ne e.symm, e]
    · rw [if_neg e]
  · rw [Array.getD_eq_getD_getElem?, Array.getElem?_modify, Array.getD_eq_getD_getElem?]
    split
    · next e =>
      rw [← e, Array.getElem?_eq_none (Nat.not_lt.1 inside)]
      rfl
    · rfl

/-- The denials of a node do not depend on the space, the table and the other nodes. A node that is
not made yet has none, like a new one. -/
theorem framed_deniedTimes (j : NodeId) (count : Nat) :
    Framed (· ≠ j) (fun _ => True) (DeniedTimes j count) := by
  refine ⟨fun _ _ h _ => h, fun v k f h hf => (denials_modify v.nodes hf).trans h, fun v n h zero => ?_,
    fun _ _ _ h _ => h, fun _ _ h => h⟩
  show ((v.nodes.push n).getD j default).denials = count
  rw [getD_push]
  split
  · next e =>
    have none : (v.node j).denials = 0 := by
      unfold node
      rw [Array.getD_eq_getD_getElem?, Array.getElem?_eq_none (Nat.le_of_eq e.symm)]
      rfl
    rw [zero, ← none]
    exact h
  · exact h

end Volume

open Volume in
/-- Only two requests have to do with the denials of a node. -/
theorem Request.preserves_denials (r : Request) {j : NodeId} (deny : r ≠ .denyWrites j)
    (allow : r ≠ .allowWrites j) (count : Nat) : Preserves (DeniedTimes j count) r.perform := by
  refine (framed_deniedTimes j count).perform r (fun k hr e => ?_) fun _ _ => trivial
  subst e
  exact hr.elim deny allow

end SectorVolume
