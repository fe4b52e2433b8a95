import SectorVolume.Volume.File
import SectorVolume.Proofs.Ends
import SectorVolume.Proofs.Layout.Plain
import SectorVolume.Proofs.Mapping.Entries

/-!
# Nodes, the table and records

What the elementary changes of a volume do to its table and its nodes, and how actions of the layers
below end as actions of the volume.
-/

namespace SectorVolume

open SectorVolume.Action

namespace OpenTable

theorem lookup_cons (s sector : SectorId) (id : NodeId) (table : OpenTable) :
    ((sector, id) :: table).lookup s = if s = sector then some id else table.lookup s := by
  rw [List.lookup_cons]
  by_cases e : s = sector
  · simp [e]
  · have ne : (s == sector) = false := beq_eq_false_iff_ne.2 e
    rw [ne, if_neg e]

theorem lookup_insert (sector s : SectorId) (id : NodeId) (table : OpenTable) :
    (insert sector id table).lookup s = if s = sector then some id else table.lookup s := by
  induction table with
  | nil => exact lookup_cons s sector id []
  | cons entry rest ih =>
    obtain ⟨sector', id'⟩ := entry
    unfold insert
    by_cases less : sector < sector'
    · rw [if_pos less, lookup_cons]
    · rw [if_neg less]
      by_cases same : sector = sector'
      · subst same
        rw [if_pos rfl, lookup_cons, lookup_cons]
        by_cases e : s = sector
        · rw [if_pos e, if_pos e]
        · rw [if_neg e, if_neg e, if_neg e]
      · rw [if_neg same, lookup_cons, lookup_cons, ih]
        by_cases e : s = sector
        · rw [if_pos e, if_pos e, if_neg fun e' => same (e.symm.trans e')]
        · rw [if_neg e, if_neg e]

theorem lookup_erase (sector s : SectorId) (table : OpenTable) :
    (erase sector table).lookup s = if s = sector then none else table.lookup s := by
  induction table with
  | nil => exact (ite_self none).symm
  | cons entry rest ih =>
    obtain ⟨sector', id'⟩ := entry
    unfold erase at ih ⊢
    rw [List.filter_cons, lookup_cons]
    by_cases same : sector' = sector
    · subst same
      rw [if_neg (by simp), ih]
      by_cases e : s = sector'
      · rw [if_pos e, if_pos e]
      · rw [if_neg e, if_neg e, if_neg e]
    · rw [if_pos (by simpa using same), lookup_cons, ih]
      by_cases e : s = sector
      · rw [if_pos e, if_neg fun e' => same (e'.symm.trans e), if_pos e]
      · rw [if_neg e, if_neg e]

end OpenTable

namespace Volume

variable {v : Volume} {α : Type}

theorem getD_modify (nodes : Array Node) (id j : NodeId) (f : Node → Node)
    (h : id < nodes.size) : (nodes.modify id f).getD j default =
      if j = id then f (nodes.getD id default) else nodes.getD j default := by
  rw [Array.getD_eq_getD_getElem?, Array.getD_eq_getD_getElem?, Array.getD_eq_getD_getElem?,
    Array.getElem?_modify]
  by_cases e : j = id
  · subst e
    rw [if_pos rfl, if_pos rfl, Array.getElem?_eq_getElem h]
    rfl
  · rw [if_neg fun e' => e e'.symm, if_neg e]

theorem getD_push (nodes : Array Node) (j : NodeId) (n : Node) :
    (nodes.push n).getD j default = if j = nodes.size then n else nodes.getD j default := by
  rw [Array.getD_eq_getD_getElem?, Array.getD_eq_getD_getElem?, Array.getElem?_push]
  by_cases e : j = nodes.size
  · rw [if_pos e, if_pos e]
    rfl
  · rw [if_neg e, if_neg e]

/-- The volume with node `id` changed. -/
def withNode (v : Volume) (id : NodeId) (f : Node → Node) : Volume :=
  { v with nodes := v.nodes.modify id f }

theorem node_withNode {id : NodeId} (h : id < v.nodes.size) (f : Node → Node) (j : NodeId) :
    (v.withNode id f).node j = if j = id then f (v.node id) else v.node j :=
  getD_modify v.nodes id j f h

theorem size_withNode (v : Volume) (id : NodeId) (f : Node → Node) :
    (v.withNode id f).nodes.size = v.nodes.size := Array.size_modify

theorem modify_modify (nodes : Array Node) (id : NodeId) (f g : Node → Node) :
    (nodes.modify id f).modify id g = nodes.modify id fun n => g (f n) := by
  refine Array.ext_getElem? fun i => ?_
  rw [Array.getElem?_modify, Array.getElem?_modify, Array.getElem?_modify]
  by_cases e : id = i
  · rw [if_pos e, if_pos e, if_pos e, Option.map_map]
    rfl
  · rw [if_neg e, if_neg e, if_neg e]

/-- The volume with node `id` changed, on another space. -/
def revised (v : Volume) (id : NodeId) (f : Node → Node) (sp : Space) : Volume :=
  { v.withNode id f with space := sp }

theorem node_revised {id : NodeId} (h : id < v.nodes.size) (f : Node → Node) (sp : Space)
    (j : NodeId) : (v.revised id f sp).node j = if j = id then f (v.node id) else v.node j :=
  node_withNode h f j

theorem revised_revised (v : Volume) (id : NodeId) (f g : Node → Node) (sp sp' : Space) :
    (v.revised id f sp).revised id g sp' = v.revised id (fun n => g (f n)) sp' := by
  show (⟨sp', v.superblock, (v.nodes.modify id f).modify id g, v.table⟩ : Volume) = _
  rw [modify_modify]
  rfl

/-- Only what the change does to the node itself counts. -/
theorem revised_congr {id : NodeId} {f g : Node → Node} (h : f (v.node id) = g (v.node id))
    (sp : Space) : v.revised id f sp = v.revised id g sp := by
  have nodes : v.nodes.modify id f = v.nodes.modify id g := by
    refine Array.ext_getElem? fun i => ?_
    rw [Array.getElem?_modify, Array.getElem?_modify]
    by_cases e : id = i
    · subst e
      rw [if_pos rfl, if_pos rfl]
      unfold node at h
      rw [Array.getD_eq_getD_getElem?] at h
      cases e' : v.nodes[id]? with
      | none => rfl
      | some n =>
        rw [e'] at h
        exact congrArg some h
    · rw [if_neg e, if_neg e]
  show (⟨sp, v.superblock, v.nodes.modify id f, v.table⟩ : Volume) = _
  rw [nodes]
  rfl

theorem revised_self (v : Volume) (id : NodeId) : v.revised id (fun n => n) v.space = v := by
  have nodes : v.nodes.modify id (fun n => n) = v.nodes := by
    refine Array.ext_getElem? fun i => ?_
    rw [Array.getElem?_modify]
    split
    · exact Option.map_id'
    · rfl
  show (⟨v.space, v.superblock, v.nodes.modify id fun n => n, v.table⟩ : Volume) = v
  rw [nodes]

section Meets

variable {β : Type} {d : α → Volume → Prop} {f : Fault → Volume → Prop}

theorem meets_getNode {id : NodeId} {rest : Node → Action Volume α}
    (h : Meets (rest (v.node id)) v d f) : Meets (getNode id >>= rest) v d f := h.of_eq rfl

theorem meets_modifyNode {id : NodeId} {g : Node → Node} {rest : PUnit → Action Volume α}
    (h : Meets (rest ⟨⟩) (v.withNode id g) d f) : Meets (modifyNode id g >>= rest) v d f :=
  h.of_eq rfl

theorem ends_getNode {id : NodeId} {rest : Node → Action Volume α} {f : Failure → Volume → Prop}
    (h : Ends (rest (v.node id)) v d f) : Ends (getNode id >>= rest) v d f := h.of_eq rfl

theorem ends_modifyNode {id : NodeId} {g : Node → Node} {rest : PUnit → Action Volume α}
    {f : Failure → Volume → Prop} (h : Ends (rest ⟨⟩) (v.withNode id g) d f) :
    Ends (modifyNode id g >>= rest) v d f := h.of_eq rfl

theorem meets_modifyTable {g : OpenTable → OpenTable} {rest : PUnit → Action Volume α}
    (h : Meets (rest ⟨⟩) { v with table := g v.table } d f) :
    Meets (modifyTable g >>= rest) v d f := h.of_eq rfl

theorem ends_onSpace {x : Action Space α} {d : α → Space → Prop} {f : Failure → Space → Prop}
    (hx : Ends x v.space d f) :
    Ends (onSpace x) v (fun a v' => d a v'.space ∧ v' = { v with space := v'.space })
      fun e v' => f e v'.space ∧ v' = { v with space := v'.space } := by
  obtain ⟨space, superblock, nodes, table⟩ := v
  unfold Ends onSpace at *
  simp only at hx ⊢
  cases e : x space with
  | ok | error =>
    rw [e] at hx
    exact ⟨hx, rfl⟩

theorem meets_onSpace {x : Action Space α} {d : α → Space → Prop} {f : Fault → Space → Prop}
    (hx : Meets x v.space d f) :
    Meets (onSpace x) v (fun a v' => d a v'.space ∧ v' = { v with space := v'.space })
      fun c v' => f c v'.space ∧ v' = { v with space := v'.space } :=
  .of_ends (ends_onSpace hx.ends) fun _ _ ⟨⟨c, e, hc⟩, same⟩ => ⟨c, e, hc, same⟩

/-- An action on the map of a node changes the space and the node's record. -/
theorem meets_onRecord {id : NodeId} {x : Action Mapping α} {d : α → Mapping → Prop}
    {f : Fault → Mapping → Prop} (hx : Meets x ⟨v.space, (v.node id).record⟩ d f) :
    Meets (onRecord id x) v
      (fun a v' => ∃ m, d a m ∧
        v' = v.revised id (fun n => { n with record := m.record }) m.space)
      (fun c v' => ∃ m, f c m ∧
        v' = v.revised id (fun n => { n with record := m.record }) m.space) := by
  obtain ⟨space, superblock, nodes, table⟩ := v
  unfold Meets Ends onRecord at *
  simp only [node] at hx ⊢
  cases e : x ⟨space, (nodes.getD id default).record⟩ with
  | ok a m =>
    rw [e] at hx
    exact ⟨m, hx, rfl⟩
  | error e' m =>
    rw [e] at hx
    obtain ⟨c, rfl, hc⟩ := hx
    exact ⟨c, rfl, m, hc, rfl⟩

/-- An action on the map of a record without a node changes the space only. -/
theorem meets_withRecord {r : Record} {x : Action Mapping α} {d : α → Mapping → Prop}
    {f : Fault → Mapping → Prop} (hx : Meets x ⟨v.space, r⟩ d f) :
    Meets (withRecord r x) v
      (fun a v' => (∃ r', d a ⟨v'.space, r'⟩) ∧ v' = { v with space := v'.space })
      (fun c v' => (∃ r', f c ⟨v'.space, r'⟩) ∧ v' = { v with space := v'.space }) := by
  obtain ⟨space, superblock, nodes, table⟩ := v
  unfold Meets Ends withRecord at *
  simp only at hx ⊢
  cases e : x ⟨space, r⟩ with
  | ok a m =>
    rw [e] at hx
    exact ⟨⟨m.record, hx⟩, rfl⟩
  | error e' m =>
    rw [e] at hx
    obtain ⟨c, rfl, hc⟩ := hx
    exact ⟨c, rfl, ⟨m.record, hc⟩, rfl⟩

end Meets

end Volume

end SectorVolume
