import Mathlib.Data.List.Pairwise
import SectorVolume.Proofs.Mapping.Tree
import SectorVolume.Proofs.Volume.Handles

/-!
# Who holds which sectors

A client of a volume holds sectors for inodes and, through its live inodes, their data sectors and
index blocks. `Owns` says that these are distinct and taken, and that as long as no transfer failed
nothing else is taken. It is kept by whatever takes or gives back sectors and hands them on to
exactly one holder.
-/

namespace SectorVolume

/-- What a client of a volume holds. -/
structure Client where
  /-- Sectors that were taken for inodes, which are not created yet. -/
  blank : List SectorId
  /-- The created inodes, up to the last close of a removed one. -/
  live : List SectorId
  /-- Removed inodes whose sectors could not be given back after the last close. -/
  doomed : List SectorId
  /-- The handles of open nodes. -/
  handles : Handles

namespace Client

/-- A client that holds nothing. -/
def empty : Client := ⟨[], [], [], .empty⟩

/-- All inode sectors. -/
def inodes (c : Client) : List SectorId := c.blank ++ c.doomed ++ c.live

/-- All sectors, where the live inodes have the given trees. -/
def sectors (c : Client) (trees : SectorId → Tree) : List SectorId :=
  c.inodes ++ c.live.flatMap fun s => (trees s).sectors

/-- The client gives up a handle. -/
def drop (c : Client) (id : NodeId) : Client := { c with handles := c.handles.drop id }

/-- The client loses a handle. -/
def miss (c : Client) (id : NodeId) : Client := { c with handles := c.handles.lose id }

/-- The inode at `s` is no longer live. -/
def lose (c : Client) (s : SectorId) : Client := { c with live := c.live.erase s }

/-- The inode at `s` is no longer live, but its sector is still taken. -/
def doom (c : Client) (s : SectorId) : Client :=
  { c with live := c.live.erase s, doomed := s :: c.doomed }

/-- The client after a handle of the inode at `s` was closed. The last close of a removed inode ends
it. -/
def closed (c : Client) (id : NodeId) (s : SectorId) : Client :=
  if (c.drop id).handles.Dead id then (c.drop id).lose s else c.drop id

/-- The client after a close that failed and left the node in the state `n`. While the node was not
told of the close the handle is lost. -/
def interrupted (c : Client) (id : NodeId) (n : Node) : Client :=
  if n.opens = 0 then if n.removed = true then (c.drop id).doom n.sector else c.drop id
  else c.miss id

variable {c c' : Client} {trees trees' : SectorId → Tree} {s id : SectorId}

theorem handles_closed (c : Client) (id : NodeId) (s : SectorId) :
    (c.closed id s).handles = c.handles.drop id := by
  unfold closed
  split <;> rfl

theorem doomed_closed (c : Client) (id : NodeId) (s : SectorId) :
    (c.closed id s).doomed = c.doomed := by
  unfold closed
  split <;> rfl

theorem handles_interrupted (c : Client) (id : NodeId) (n : Node) :
    (c.interrupted id n).handles = if n.opens = 0 then c.handles.drop id else c.handles.lose id := by
  unfold interrupted
  split
  · split <;> rfl
  · rfl

theorem mem_doomed_interrupted {n : Node} {id : NodeId} (h : s ∈ c.doomed) :
    s ∈ (c.interrupted id n).doomed := by
  unfold interrupted
  split
  · split
    · exact List.mem_cons_of_mem _ h
    · exact h
  · exact h

theorem mem_inodes_live (h : s ∈ c.live) : s ∈ c.inodes := List.mem_append_right _ h

theorem mem_inodes_blank (h : s ∈ c.blank) : s ∈ c.inodes :=
  List.mem_append_left _ (List.mem_append_left _ h)

theorem mem_inodes_doomed (h : s ∈ c.doomed) : s ∈ c.inodes :=
  List.mem_append_left _ (List.mem_append_right _ h)

theorem mem_sectors_inode (h : s ∈ c.inodes) : s ∈ c.sectors trees := List.mem_append_left _ h

theorem flatMap_congr_of_mem {f g : SectorId → List SectorId} {l : List SectorId}
    (h : ∀ s ∈ l, f s = g s) : l.flatMap f = l.flatMap g := by
  rw [List.flatMap_def, List.flatMap_def, List.map_congr_left h]

/-- Changing the tree of one live inode. -/
theorem sectors_update (nodup : c.live.Nodup) (hs : s ∈ c.live) {t : Tree} {ids : List SectorId}
    (perm : t.sectors.Perm ((trees s).sectors ++ ids)) :
    (c.sectors (Function.update trees s t)).Perm (c.sectors trees ++ ids) := by
  obtain ⟨front, back, e⟩ := List.append_of_mem hs
  have nodup' := nodup
  rw [e] at nodup'
  have notin : s ∉ front ++ back := (List.nodup_middle.1 nodup').notMem
  have others : ∀ l : List SectorId, (∀ s' ∈ l, s' ∈ front ++ back) →
      l.flatMap (fun s' => (Function.update trees s t s').sectors) =
        l.flatMap fun s' => (trees s').sectors := by
    intro l hl
    refine flatMap_congr_of_mem fun s' hs' => ?_
    have ne : s' ≠ s := fun e' => notin (e' ▸ hl s' hs')
    rw [Function.update_of_ne ne]
  unfold sectors
  rw [e, List.flatMap_append, List.flatMap_append, List.flatMap_cons, List.flatMap_cons,
    others front fun _ h => List.mem_append_left _ h,
    others back fun _ h => List.mem_append_right _ h, Function.update_self]
  refine List.perm_iff_count.2 fun a => ?_
  have counts := perm.count_eq a
  simp only [List.count_append] at counts ⊢
  omega

/-- The sectors below a live inode are split off. -/
theorem sectors_doom (hs : s ∈ c.live) :
    (c.sectors trees).Perm ((c.doom s).sectors trees ++ (trees s).sectors) := by
  refine List.perm_iff_count.2 fun a => ?_
  have live := List.perm_cons_erase hs
  have below := (live.flatMap_right fun s => (trees s).sectors).count_eq a
  have live := live.count_eq a
  unfold sectors inodes doom
  simp only [List.flatMap_cons, List.count_append, List.count_cons] at below live ⊢
  omega

theorem sectors_lose (c : Client) (s : SectorId) :
    ((c.doom s).sectors trees).Perm ((c.lose s).sectors trees ++ [s]) := by
  refine List.perm_iff_count.2 fun a => ?_
  unfold sectors inodes doom lose
  simp only [List.count_append, List.count_cons, List.count_nil]
  omega

/-- The sectors of one live inode, and those of the others. -/
theorem disjoint_trees (nodup : (c.sectors trees).Nodup) {s' : SectorId} (hs : s ∈ c.live)
    (hs' : s' ∈ c.live) (ne : s' ≠ s) (hid : id ∈ (trees s').sectors) : id ∉ (trees s).sectors := by
  have pairwise := (List.nodup_flatMap.1 nodup.of_append_right).2
  have symm : Std.Symm (Function.onFun List.Disjoint fun s => (trees s).sectors) :=
    ⟨fun _ _ disjoint _ h h' => disjoint h' h⟩
  exact fun hid' => pairwise.forall hs' hs ne hid hid'

theorem not_mem_tree (nodup : (c.sectors trees).Nodup) (hs : s ∈ c.live) (hid : id ∈ c.inodes) :
    id ∉ (trees s).sectors := fun hid' =>
  List.disjoint_of_nodup_append nodup hid (List.mem_flatMap.2 ⟨s, hs, hid'⟩)

end Client

variable [Promise]

/-- What the client holds is taken once, and nothing else is if no transfer failed since the
beginning, when `floor` had failed. -/
structure Owns (a : Stock) (floor : Nat) (c : Client) (trees : SectorId → Tree) : Prop where
  nodup : (c.sectors trees).Nodup
  held : ∀ id ∈ c.sectors trees, a.Held id
  since : floor ≤ a.failures
  unleaked : a.failures = floor → ∀ id, a.Usable id → id ∉ c.sectors trees → a.free id

namespace Owns

variable {a b : Stock} {floor : Nat} {c c' : Client} {trees trees' : SectorId → Tree}
  {X : SectorId → Prop} {ids : List SectorId}

/-- Sectors are taken and handed on to the client. -/
theorem took (o : Owns a floor c trees) (proper : ∀ id, a.free id → a.Usable id)
    (took : Stock.Took X ids a b)
    (perm : (c'.sectors trees').Perm (c.sectors trees ++ ids)) : Owns b floor c' trees' := by
  have le := took.failures
  have le' := o.since
  refine ⟨perm.nodup_iff.2 (List.nodup_append.2 ⟨o.nodup, took.nodup, fun x hx y hy e => ?_⟩),
    fun id hid => ?_, Nat.le_trans le' le, fun e id usable notin => ?_⟩
  · subst e
    exact (o.held x hx).2 (took.free x hy)
  · rcases List.mem_append.1 (perm.mem_iff.1 hid) with hid | hid
    · exact took.held (o.held id hid)
    · exact took.held_of_mem proper hid
  · have notin' := fun hid => notin (perm.mem_iff.2 hid)
    have free := o.unleaked (by omega) id (took.usable.1 usable)
      fun hid => notin' (List.mem_append_left _ hid)
    exact took.unleaked (by omega) id free fun hid => notin' (List.mem_append_right _ hid)

/-- The client gives sectors back. -/
theorem gave (o : Owns a floor c trees) (gave : Stock.Gave ids a b)
    (perm : (c.sectors trees).Perm (c'.sectors trees' ++ ids)) : Owns b floor c' trees' := by
  have le := gave.failures
  have le' := o.since
  have nodup := perm.nodup_iff.1 o.nodup
  refine ⟨nodup.of_append_left, fun id hid => ?_, Nat.le_trans le' le, fun e id usable notin => ?_⟩
  · exact gave.held (o.held id (perm.mem_iff.2 (List.mem_append_left _ hid)))
      (List.disjoint_of_nodup_append nodup hid)
  · by_cases mem : id ∈ ids
    · exact gave.all (by omega) id mem
    · refine gave.kept id (o.unleaked (by omega) id (gave.usable.1 usable) fun hid => ?_)
      exact (List.mem_append.1 (perm.mem_iff.1 hid)).elim notin mem

/-- Only what the client holds is renamed. -/
theorem perm (o : Owns a floor c trees) (perm : (c'.sectors trees').Perm (c.sectors trees)) :
    Owns a floor c' trees' :=
  ⟨perm.nodup_iff.2 o.nodup, fun id hid => o.held id (perm.mem_iff.1 hid), o.since,
    fun e id usable notin => o.unleaked e id usable fun hid => notin (perm.mem_iff.2 hid)⟩

theorem nodup_live (o : Owns a floor c trees) : c.live.Nodup :=
  o.nodup.of_append_left.of_append_right

end Owns

end SectorVolume
