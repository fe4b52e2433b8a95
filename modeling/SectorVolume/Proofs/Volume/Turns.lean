import SectorVolume.Proofs.Volume.Denials
import SectorVolume.Proofs.Volume.Runs

/-!
# Turns of handles

Every handle of a node may deny writes once, and allow them again once. `Volume.Orderly` are the
states that a client with this rule leads to. Writes are then denied as often as there are handles
that are in between, unless one of these was closed: nobody takes its denial back.
-/

namespace SectorVolume

open SectorVolume.Action

/-- The handles of a node by what was done with them. -/
structure Turns where
  /-- By these writes were not denied so far. -/
  fresh : Nat
  /-- By these writes are denied. -/
  denying : Nat
  /-- By these writes were denied and allowed again. -/
  spent : Nat

/-- The number of handles. -/
def Turns.total (t : Turns) : Nat := t.fresh + t.denying + t.spent

theorem Turns.total_mk (f d p : Nat) : Turns.total ⟨f, d, p⟩ = f + d + p := rfl

/-- Whether a request, with its answer if it has one, is about the handles of node `id`. -/
def Request.Concerns (id : NodeId) : (r : Request) → Option r.Answer → Prop
  | openInode _, answer => answer = some id
  | reopen k, answer => k = id ∧ answer.isSome
  | denyWrites k, _ | allowWrites k, _ | closeInode k, _ => k = id
  | _, _ => False

/-- What becomes of the handles of node `id` by a request with its answer. If `careless`, a handle
may be closed by which writes are denied. -/
inductive Turns.Next (careless : Prop) (id : NodeId) :
    Turns → (r : Request) → Option r.Answer → Turns → Prop where
  | opened {f d p : Nat} {s : SectorId} :
    Next careless id ⟨f, d, p⟩ (.openInode s) (some id) ⟨f + 1, d, p⟩
  | reopened {f d p : Nat} : Next careless id ⟨f, d, p⟩ (.reopen id) (some ()) ⟨f + 1, d, p⟩
  | denied {f d p : Nat} : Next careless id ⟨f + 1, d, p⟩ (.denyWrites id) (some ()) ⟨f, d + 1, p⟩
  | allowed {f d p : Nat} : Next careless id ⟨f, d + 1, p⟩ (.allowWrites id) (some ()) ⟨f, d, p + 1⟩
  | closedFresh {f d p : Nat} {answer : Option Unit} :
    Next careless id ⟨f + 1, d, p⟩ (.closeInode id) answer ⟨f, d, p⟩
  | closedSpent {f d p : Nat} {answer : Option Unit} :
    Next careless id ⟨f, d, p + 1⟩ (.closeInode id) answer ⟨f, d, p⟩
  | closedDenying {f d p : Nat} {answer : Option Unit} (allowed : careless) :
    Next careless id ⟨f, d + 1, p⟩ (.closeInode id) answer ⟨f, d, p⟩
  | other {t : Turns} {r : Request} {answer : Option r.Answer} (other : ¬ r.Concerns id answer) :
    Next careless id t r answer t

namespace Volume

variable {disk : Disk} {log : Log} {total : UInt32} {capacity : Nat} {time : Int64}
  {v v' : Volume} {c c' : Client} {r : Request} {id : NodeId} {t t' : Turns} {careless : Prop}
  {floor : Nat}

/-- The states of a volume and its client, with the handles of node `id`, that requests lead to from
a new volume when the handles of `id` are used by turns. -/
inductive Orderly (careless : Prop) (disk : Disk) (log : Log) (total : UInt32) (capacity : Nat)
    (time : Int64) (id : NodeId) : Volume → Client → Turns → Prop where
  | format {v : Volume} (h : format disk log total capacity time = .ok v) :
    Orderly careless disk log total capacity time id v .empty ⟨0, 0, 0⟩
  | answered {v v' : Volume} {c : Client} {t t' : Turns} {r : Request} {a : r.Answer}
    (h : Orderly careless disk log total capacity time id v c t) (allowed : r.Allowed c)
    (e : r.perform v = .ok a v') (next : t.Next careless id r (some a) t') :
    Orderly careless disk log total capacity time id v' (r.answered c v' a) t'
  | failed {v v' : Volume} {c : Client} {t t' : Turns} {r : Request} {e' : Failure}
    (h : Orderly careless disk log total capacity time id v c t) (tried : r.Tried c)
    (e : r.perform v = .error e' v') (next : t.Next careless id r none t') :
    Orderly careless disk log total capacity time id v' (r.failed c v') t'

theorem Orderly.probed (h : Orderly careless disk log total capacity time id v c t) :
    Probed disk log total capacity time v c := by
  induction h with
  | format e => exact .format e
  | answered _ allowed e _ ih => exact ih.step (.answered allowed e)
  | failed _ tried e _ ih => exact ih.step (.failed tried e)

theorem count_add (h : Handles) (id k : NodeId) :
    (h.add k).ids.count id = h.ids.count id + if k = id then 1 else 0 := by
  show (k :: h.ids).count id = _
  rw [List.count_cons]
  simp only [beq_iff_eq]

/-- A request that is answered leaves as many handles as the turns tell. -/
theorem total_answered {a : r.Answer} (allowed : r.Allowed c) (next : t.Next careless id r (some a) t')
    (h : t.total = c.handles.ids.count id) :
    t'.total = (r.answered c v' a).handles.ids.count id := by
  cases next with
  | opened | reopened =>
    show _ = (c.handles.add id).ids.count id
    rw [count_add, if_pos rfl]
    simp only [Turns.total_mk] at h ⊢
    omega
  | denied | allowed =>
    show _ = c.handles.ids.count id
    simp only [Turns.total_mk] at h ⊢
    omega
  | closedFresh | closedSpent | closedDenying =>
    show _ = (c.closed ..).handles.ids.count id
    have count := Handles.Counts.count_drop allowed id
    rw [if_pos rfl] at count
    rw [Client.handles_closed]
    simp only [Turns.total_mk] at h ⊢
    omega
  | other other =>
    rw [h]
    cases r with
    | openInode s =>
      have ne : ¬ (show NodeId from a) = id := fun e => other (congrArg some e)
      exact (Nat.add_zero _).symm.trans ((count_add c.handles id a).trans (by rw [if_neg ne])).symm
    | reopen k =>
      show _ = (c.handles.add k).ids.count id
      rw [count_add, if_neg fun e => other ⟨e, rfl⟩, Nat.add_zero]
    | closeInode k =>
      show _ = (c.closed ..).handles.ids.count id
      have count := Handles.Counts.count_drop allowed id
      rw [if_neg fun e => other e.symm] at count
      rw [Client.handles_closed]
      exact count.symm
    | _ => rfl

/-- So does one that fails: a handle whose close failed cannot be used any more. -/
theorem total_failed (tried : r.Tried c) (next : t.Next careless id r none t')
    (h : t.total = c.handles.ids.count id) : t'.total = (r.failed c v').handles.ids.count id := by
  have ids : ∀ (k : NodeId) (n : Node),
      (c.interrupted k n).handles.ids = (c.handles.drop k).ids := by
    intro k n
    rw [Client.handles_interrupted]
    split <;> rfl
  cases next with
  | closedFresh | closedSpent | closedDenying =>
    show _ = (c.interrupted ..).handles.ids.count id
    have count := Handles.Counts.count_drop (tried.resolve_right nofun) id
    rw [if_pos rfl] at count
    rw [ids]
    simp only [Turns.total_mk] at h ⊢
    omega
  | other other =>
    rw [h]
    cases r with
    | closeInode k =>
      show _ = (c.interrupted ..).handles.ids.count id
      have count := Handles.Counts.count_drop (tried.resolve_right nofun) id
      rw [if_neg fun e => other e.symm] at count
      rw [ids]
      exact count.symm
    | _ => rfl

/-- The turns are those of the handles that the client has. -/
theorem Orderly.total_eq (h : Orderly careless disk log total capacity time id v c t) :
    t.total = c.handles.ids.count id := by
  induction h with
  | format => rfl
  | answered _ allowed _ next ih => exact total_answered allowed next ih
  | failed _ tried _ next ih => exact total_failed tried next ih

/-- Unless a handle was closed by which writes are denied, they are denied once for every handle by
which they are. -/
theorem Orderly.denials_eq (h : Orderly False disk log total capacity time id v c t) :
    (v.node id).denials = t.denying := by
  let : Promise := promise disk total
  induction h with
  | format e =>
    have cases := format_cases log capacity time (fun works => works) (Nat.le_refl _)
      (Nat.le_of_lt total.toNat_lt) (room_of_format e)
    rw [e] at cases
    unfold node
    rw [cases.1.nodes]
    rfl
  | @answered v v' c t t' r a h allowed e next ih =>
    obtain ⟨_, inv⟩ := h.probed.promised.inv
    have effect := ((Request.ends_perform inv r allowed).ok e).2
    have same : r ≠ .denyWrites id → r ≠ .allowWrites id → (v'.node id).denials = t.denying :=
      fun deny allow => (r.preserves_denials deny allow _ v ih).ok e
    cases next with
    | denied => exact effect.trans (congrArg (· + 1) ih)
    | allowed => exact Nat.succ.inj (effect.trans ih)
    | other other =>
      refine same ?_ ?_
      · rintro rfl
        exact other rfl
      · rintro rfl
        exact other rfl
    | closedDenying no => exact no.elim
    | opened | reopened | closedFresh | closedSpent => exact same nofun nofun
  | @failed v v' c t t' r e' h tried e next ih =>
    have same : r ≠ .denyWrites id → r ≠ .allowWrites id → (v'.node id).denials = t.denying :=
      fun deny allow => (r.preserves_denials deny allow _ v ih).error e
    cases next with
    | other other =>
      refine same ?_ ?_
      · rintro rfl
        exact other rfl
      · rintro rfl
        exact other rfl
    | closedDenying no => exact no.elim
    | closedFresh | closedSpent => exact same nofun nofun

/-- A handle by which writes were not denied can deny them. -/
theorem Orderly.denies (h : Orderly False disk log total capacity time id v c t) (fresh : 0 < t.fresh) :
    ∃ v', denyWrites id v = .ok () v' := by
  let : Promise := promise disk total
  obtain ⟨_, inv⟩ := h.probed.promised.inv
  have denials := h.denials_eq
  have handles := h.total_eq
  have opens := inv.tabled.handles.opens id
  unfold Turns.total at handles
  have hid : id ∈ c.handles.ids := List.count_pos_iff.1 (by omega)
  cases e : denyWrites id v with
  | ok _ v' => exact ⟨v', rfl⟩
  | error f v' =>
    obtain ⟨-, -, beyond⟩ := (ends_denyWrites inv (inv.opened hid)).error e
    omega

/-- A client that closes no handle by which writes are denied never denies them more often than the
node is open, and is always answered when it denies or allows them by turns. -/
theorem Orderly.balanced (h : Orderly False disk log total capacity time id v c t) :
    (v.node id).denials = t.denying ∧ (v.node id).denials ≤ (v.node id).opens ∧
      (0 < t.fresh → ∃ v', denyWrites id v = .ok () v') ∧
      (0 < t.denying → ∃ v', allowWrites id v = .ok () v') := by
  let : Promise := promise disk total
  obtain ⟨_, inv⟩ := h.probed.promised.inv
  have denials := h.denials_eq
  have handles := h.total_eq
  have opens := inv.tabled.handles.opens id
  unfold Turns.total at handles
  refine ⟨denials, by omega, h.denies, fun denying => ?_⟩
  have hid : id ∈ c.handles.ids := List.count_pos_iff.1 (by omega)
  cases e : allowWrites id v with
  | ok _ v' => exact ⟨v', rfl⟩
  | error f v' =>
    obtain ⟨-, ⟨-, beyond⟩ | ⟨-, none⟩⟩ := (ends_allowWrites inv (inv.opened hid)).error e
    · omega
    · omega

/-- A new file that was opened has one handle, by which writes were not denied. -/
theorem Orderly.opening {v₀ v₁ v₂ v₃ : Volume} {s : SectorId} {length : Nat}
    (e₀ : Volume.format disk log total capacity time = .ok v₀) (e₁ : allocateInode v₀ = .ok s v₁)
    (e₂ : createInode s length false v₁ = .ok () v₂) (e₃ : openInode s v₂ = .ok id v₃) :
    Orderly careless disk log total capacity time id v₃ ⟨[], [s], [], ⟨[id], [], []⟩⟩ ⟨1, 0, 0⟩ := by
  have run₀ : Orderly careless disk log total capacity time id v₀ .empty ⟨0, 0, 0⟩ := .format e₀
  have run₁ := run₀.answered (r := .allocateInode) trivial e₁ (.other nofun)
  have run₂ := run₁.answered (r := .createInode s length false) List.mem_cons_self e₂ (.other nofun)
  have run := run₂.answered (r := .openInode s) List.mem_cons_self e₃ .opened
  have blank : [s].erase s = [] := by simp
  simpa [Request.answered, Client.empty, Handles.add, Handles.empty, blank] using run

theorem exists_orderly : ∃ v s id, v.bytes s = Array.replicate 1000 0 ∧ ∀ careless,
    Orderly careless (Disk.memory 16) {} 16 1 0 id v ⟨[], [s], [], ⟨[id], [], []⟩⟩ ⟨1, 0, 0⟩ := by
  obtain ⟨v₀, v₁, v₂, v₃, s, id, e₀, e₁, e₂, e₃, bytes, -⟩ := exists_opening
  exact ⟨v₃, s, id, bytes, fun careless => .opening e₀ e₁ e₂ e₃⟩

/-- In a small memory writes to a file can be denied. -/
theorem balanced_of_open_file : ∃ v c id, Orderly False (Disk.memory 16) {} 16 1 0 id v c ⟨1, 0, 0⟩ ∧
    (v.node id).denials = 0 ∧ ∃ v', denyWrites id v = .ok () v' := by
  obtain ⟨v, s, id, -, run⟩ := exists_orderly
  obtain ⟨denials, -, denying, -⟩ := (run False).balanced
  exact ⟨v, _, id, run False, denials, denying Nat.one_pos⟩

/-- After a handle was closed by which writes are denied, the other handle cannot deny them: they
would be denied more often than the node is open. -/
theorem unbalanced_of_careless_close : ∃ v c id,
    Orderly True (Disk.memory 16) {} 16 1 0 id v c ⟨1, 0, 0⟩ ∧
      ∃ v', denyWrites id v = .error (.violation .deniedBeyondOpeners) v' := by
  let : Promise := memoryPromise
  have works : Promise.works := trivial
  obtain ⟨v, s, id, -, run⟩ := exists_orderly
  have hid : id ∈ [id] := List.mem_singleton_self id
  have hid' : id ∈ [id, id] := List.mem_cons_self
  -- there is a second handle, and writes are denied by one of the two, which is closed
  obtain ⟨_, inv⟩ := (run True).probed.inv_of_memory
  obtain ⟨(_ : Unit), v₁, e₁, -⟩ := inv.answers works (.reopen id) hid fun _ _ _ no => no
  have run₁ := fun careless => (run careless).answered (r := .reopen id) hid e₁ .reopened
  obtain ⟨v₂, e₂⟩ := (run₁ False).denies Nat.two_pos
  have run₂ := fun careless => (run₁ careless).answered (r := .denyWrites id) hid' e₂ .denied
  obtain ⟨_, inv₂⟩ := (run₂ True).probed.inv_of_memory
  obtain ⟨(_ : Unit), v₃, e₃, -⟩ := inv₂.answers works (.closeInode id) hid' fun _ _ _ no => no
  have run₃ := (run₂ True).answered (r := .closeInode id) hid' e₃ (.closedDenying trivial)
  obtain ⟨_, inv₃⟩ := run₃.probed.inv_of_memory
  -- what was denied by it is still counted, and now the node is open as often
  have denials₃ : (v₃.node id).denials = 1 :=
    (Request.preserves_denials (.closeInode id) nofun nofun _ v₂ (run₂ False).denials_eq).ok e₃
  have count := run₃.total_eq
  have opens₃ : (v₃.node id).opens = 1 := by
    rw [inv₃.tabled.handles.opens id, ← count]
    exact congrArg (fun l => 1 + l.count id) (Request.lost_answered (.closeInode id) _ v₃ _)
  refine ⟨v₃, _, id, run₃, ?_⟩
  have denying := ends_denyWrites inv₃ (inv₃.opened (List.count_pos_iff.1 (Nat.one_pos.trans_eq count)))
  cases e : denyWrites id v₃ with
  | ok _ v₄ =>
    have within := (denying.ok e).2.2
    omega
  | error f v₄ =>
    obtain ⟨-, rfl, -⟩ := denying.error e
    exact ⟨v₄, rfl⟩

end Volume

end SectorVolume
