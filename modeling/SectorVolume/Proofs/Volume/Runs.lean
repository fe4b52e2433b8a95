import SectorVolume.Proofs.Volume.Steps

/-!
# Runs of a volume

Whatever requests a client makes, the invariant holds. Nothing has to be known about the disk: which
transfers fail is left open. On a disk that works for all sectors of the volume none does.
-/

namespace SectorVolume

open SectorVolume.Action

namespace Volume

variable {disk : Disk} {log : Log} {total : UInt32} {capacity : Nat} {time : Int64}
  {v v' : Volume} {c : Client}

/-- That a disk with enough sectors works, if it does. -/
@[reducible] def promise (disk : Disk) (total : UInt32) : Promise :=
  ⟨disk.Working total.toNat, total.toNat⟩

/-- All that is known of a volume, with nothing promised but what the disk itself promises. -/
theorem Probed.promised (h : Probed disk log total capacity time v c) :
    let _ := promise disk total
    v.Known disk.failures total time c := by
  let : Promise := promise disk total
  exact h.known id (Nat.le_refl _) (Nat.le_of_lt total.toNat_lt)

theorem Reachable.room (h : Reachable disk log total capacity time v c) :
    1 + bitmapSectors total.toNat < total.toNat := h.probed.room

/-- The invariant holds in all states, and what nobody has is as it was in the beginning. -/
theorem Reachable.inv [Promise] (works : Promise.works → disk.Working Promise.sectors)
    (room : total.toNat ≤ Promise.sectors) (words : Promise.sectors ≤ wordRange32)
    (h : Reachable disk log total capacity time v c) :
    ∃ (v₀ : Volume) (trees : SectorId → Tree), v₀.Fresh total time ∧ v₀.Follows v ∧
      v.Inv disk.failures c trees := by
  have known := h.probed.known works room words
  obtain ⟨v₀, fresh, follows⟩ := known.base
  obtain ⟨trees, inv⟩ := known.inv
  exact ⟨v₀, trees, fresh, follows, inv⟩

/-! ## On a disk that works -/

section

variable [Promise] {floor : Nat} {trees : SectorId → Tree}

theorem Inv.clean (h : v.Inv floor c trees) (works : Promise.works) :
    v.space.stock.failures = 0 := h.space.clean works

theorem Inv.not_broke {a : Stock} {e : Fault} (h : v.Inv floor c trees)
    (broke : Stock.Broke a v.space.stock e) : ¬ Promise.works := fun works =>
  h.space.not_broke works broke

/-- There are as many sectors as the client leaves. -/
theorem Inv.not_lacks (h : v.Inv floor c trees) (works : Promise.works) (ids : List SectorId)
    {count : Nat} (enough : count ≤ ids.length) (nodup : ids.Nodup)
    (left : ∀ id ∈ ids, v.space.stock.Usable id ∧ id ∉ c.sectors trees)
    (a : Stock) : ¬ a.Lacks v.space.stock count := by
  have clean := h.clean works
  have since := h.owns.since
  rintro (short | failed)
  · refine Nat.not_lt.2 enough (short ids nodup fun id hid => ?_)
    obtain ⟨usable, notin⟩ := left id hid
    exact h.owns.unleaked (by omega) id usable notin
  · omega

/-- A request that there is no reason to refuse is answered. -/
theorem Inv.answers (h : v.Inv floor c trees) (works : Promise.works) (r : Request)
    (allowed : r.Allowed c)
    (granted : ∀ e v', v.Leads floor c Stock.nowhere v' (r.failed c v') → ¬ r.Refused v v' e) :
    ∃ a v', r.perform v = .ok a v' ∧
      v.Leads floor c (fun s => r.target v = some s ∨ s ∉ (r.answered c v' a).live) v'
        (r.answered c v' a) ∧ r.Effect v v' a := by
  have performing := Request.ends_perform h r allowed
  cases e : r.perform v with
  | ok a v' => exact ⟨a, v', rfl, performing.ok e⟩
  | error f v' =>
    rcases performing.error e with ⟨leads, refused⟩ | ⟨cause, -, leads, broke⟩
    · exact absurd refused (granted f v' leads)
    · obtain ⟨_, inv'⟩ := leads.inv
      exact absurd works (inv'.not_broke broke)

end

/-- A small volume can be set up on every disk that works. -/
theorem exists_small_volume (works : disk.Working 16) : ∃ v, format disk {} 16 1 0 = .ok v := by
  let : Promise := ⟨True, 16⟩
  have cases := format_cases {} 1 0 (fun _ => works) (by decide : (16 : UInt32).toNat ≤ 16) (by decide)
    (by decide)
  cases e : format disk {} 16 1 0 with
  | ok v => exact ⟨v, rfl⟩
  | error _ =>
    rw [e] at cases
    rcases cases with ⟨_, no⟩ | no
    · cases no
    · exact absurd trivial no

/-- A small memory works. -/
theorem working_memory : (Disk.memory 16).Working 16 := ⟨nofun, by decide, rfl⟩

/-- That it does. -/
@[reducible] def memoryPromise : Promise := ⟨True, 16⟩

theorem Probed.inv_of_memory (h : Probed (Disk.memory 16) {} 16 1 0 v c) :
    let _ := memoryPromise
    ∃ trees, v.Inv 0 c trees := by
  let : Promise := memoryPromise
  exact (h.known (fun _ => working_memory) (by decide) (by decide)).inv

/-- In a small memory there is room for a file, which can be opened. -/
theorem exists_opening : ∃ v₀ v₁ v₂ v₃ s id, format (Disk.memory 16) {} 16 1 0 = .ok v₀ ∧
    allocateInode v₀ = .ok s v₁ ∧ createInode s 1000 false v₁ = .ok () v₂ ∧
      openInode s v₂ = .ok id v₃ ∧ v₃.bytes s = Array.replicate 1000 0 ∧
        v₃.space.storage.disk.failures = 0 ∧ (v₃.mappedOf s).data.length = 2 := by
  let : Promise := ⟨True, 16⟩
  have works : Promise.works := trivial
  have disk : Promise.works → (Disk.memory 16).Working Promise.sectors :=
    fun _ => working_memory
  obtain ⟨v₀, e₀⟩ := exists_small_volume working_memory
  have run₀ := Reachable.format e₀
  obtain ⟨v₁, trees, fresh, follows, inv₀⟩ := run₀.inv disk (by decide) (by decide)
  have usable : ∀ {v}, v₀.Follows v → ∀ id : SectorId, id ∈ [2, 3, 4] → v.space.stock.Usable id := by
    intro v follows' id hid
    refine (follows.trans follows').stock.usable.2
      ((Space.usable_iff_of_bitmap fresh.allocator (Nat.le_refl 16)).2 ?_)
    simp only [List.mem_cons, List.not_mem_nil, or_false] at hid
    rcases hid with rfl | rfl | rfl <;> decide
  -- a sector is taken for the inode
  obtain ⟨(s : SectorId), w₁, e₁, leads₁, -⟩ := inv₀.answers works .allocateInode trivial (by
    rintro e v' leads ⟨-, lacks⟩
    obtain ⟨trees', inv'⟩ := leads.inv
    refine inv'.not_lacks works [2] (by decide) (by decide) (fun id hid => ⟨?_, List.not_mem_nil⟩) _
      lacks
    exact usable leads.follows id (List.mem_cons.2 (.inl (List.mem_singleton.1 hid))))
  obtain ⟨trees₁, inv₁⟩ := leads₁.inv
  -- at most one of three sectors is that one
  have others : ∃ a b : SectorId, a ∈ [2, 3, 4] ∧ b ∈ [2, 3, 4] ∧ a ≠ b ∧ a ≠ s ∧ b ≠ s := by
    by_cases e : s = 2
    · exact ⟨3, 4, by simp [e]⟩
    · by_cases e' : s = 3
      · exact ⟨2, 4, by simp [e']⟩
      · exact ⟨2, 3, by simp [Ne.symm e, Ne.symm e']⟩
  obtain ⟨a, b, ha, hb, ne, hs, hs'⟩ := others
  obtain ⟨_, w₂, e₂, leads₂, bytes, many⟩ := inv₁.answers works (.createInode s 1000 false)
    List.mem_cons_self (by
    rintro e v' leads (⟨-, lacks⟩ | ⟨large, -⟩)
    · obtain ⟨trees', inv'⟩ := leads.inv
      have follows' := leads₁.follows.trans leads.follows
      refine inv'.not_lacks works [a, b] (Nat.le_refl 2) (by simpa using ne) (fun id hid => ?_) _ lacks
      have held : ∀ id, id ≠ s → id ∉ Client.sectors ⟨[s], [], [], .empty⟩ trees' := by
        intro id ne
        simpa [Client.sectors, Client.inodes] using ne
      rcases List.mem_pair.1 hid with rfl | rfl
      · exact ⟨usable follows' _ ha, held _ hs⟩
      · exact ⟨usable follows' _ hb, held _ hs'⟩
    · exact absurd large (by decide))
  obtain ⟨trees₂, inv₂⟩ := leads₂.inv
  have live : s ∈ (Request.answered ⟨[s], [], [], .empty⟩ w₂ (.createInode s 1000 false) ()).live :=
    List.mem_cons_self
  obtain ⟨id, w₃, e₃, leads₃, -⟩ := inv₂.answers works (.openInode s) live fun _ _ _ no => no
  obtain ⟨trees₃, inv₃⟩ := leads₃.inv
  have same : w₂.Matches w₃ s := by
    refine leads₃.same s live ?_
    rintro (none | gone)
    · cases none
    · exact gone live
  exact ⟨v₀, w₁, w₂, w₃, s, id, e₀, e₁, e₂, e₃, same.bytes.trans bytes, inv₃.clean works,
    (congrArg (fun mapped => mapped.data.length) same.mapped).trans many⟩

/-- The states that this leads to. -/
theorem Reachable.opening {v₀ v₁ v₂ v₃ : Volume} {s : SectorId} {id : NodeId} {length : Nat}
    (e₀ : Volume.format disk log total capacity time = .ok v₀) (e₁ : allocateInode v₀ = .ok s v₁)
    (e₂ : createInode s length false v₁ = .ok () v₂) (e₃ : openInode s v₂ = .ok id v₃) :
    Reachable disk log total capacity time v₃ ⟨[], [s], [], ⟨[id], [], []⟩⟩ := by
  have run₁ := (Reachable.format e₀).answered (r := .allocateInode) trivial e₁
  have run₂ := run₁.answered (r := .createInode s length false) List.mem_cons_self e₂
  have run := run₂.answered (r := .openInode s) List.mem_cons_self e₃
  have blank : [s].erase s = [] := by simp
  simpa [Request.answered, Client.empty, Handles.add, Handles.empty, blank] using run

theorem exists_open_file : ∃ v s id,
    Reachable (Disk.memory 16) {} 16 1 0 v ⟨[], [s], [], ⟨[id], [], []⟩⟩ ∧
      v.bytes s = Array.replicate 1000 0 ∧ v.space.storage.disk.failures = 0 ∧
        (v.mappedOf s).data.length = 2 := by
  obtain ⟨v₀, v₁, v₂, v₃, s, id, e₀, e₁, e₂, e₃, file⟩ := exists_opening
  exact ⟨v₃, s, id, .opening e₀ e₁ e₂ e₃, file⟩

end Volume

end SectorVolume
