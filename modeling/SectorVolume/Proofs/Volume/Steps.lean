import SectorVolume.Proofs.Volume.Requests

/-!
# Steps of a volume

A client may also try to open a sector that is no live inode, and a refusal changes nothing.
`Request.Step` is a request with what the client has after it, be it answered or not,
`Volume.Probed` are the states that such steps lead to from a new volume, and `Volume.Steps` are
runs all of whose steps are of one kind.
-/

namespace SectorVolume

open SectorVolume.Action

/-! ## Strays -/

namespace Volume

variable [Promise] {v : Volume} {s : SectorId}

/-- The sectors of the volume are on the disk. -/
def Reaches (v : Volume) : Prop :=
  ∃ sb, v.superblock = some sb ∧ sb.totalSectors.toNat ≤ Promise.sectors

theorem Reaches.there (h : v.Reaches) (inside : ∀ sb, v.superblock = some sb → s < sb.totalSectors) :
    s.toNat < Promise.sectors := by
  obtain ⟨sb, label, reach⟩ := h
  exact Nat.lt_of_lt_of_le (UInt32.lt_iff_toNat_lt.1 (inside sb label)) reach

end Volume

/-! ## Steps -/

namespace Request

variable {v v' : Volume} {c c' : Client} {r : Request}

/-- What a client may try: it may find out about any sector whether there is an inode. -/
def Tried (c : Client) (r : Request) : Prop := r.Allowed c ∨ ∃ s, r = .openInode s

/-- A request is carried out. What is no live inode is not opened. -/
inductive Step (v : Volume) (c : Client) (r : Request) : Volume → Client → Prop where
  | answered {v' : Volume} {a : r.Answer} (allowed : r.Allowed c) (e : r.perform v = .ok a v') :
    Step v c r v' (r.answered c v' a)
  | failed {v' : Volume} {e' : Failure} (tried : r.Tried c) (e : r.perform v = .error e' v') :
    Step v c r v' (r.failed c v')

variable [Promise] {floor : Nat} {trees : SectorId → Tree}

/-- Each step leads from one good state to another. -/
theorem Step.moves (h : v.Inv floor c trees) (reach : v.Reaches) (step : Step v c r v' c') :
    r.Moves floor v c v' c' := by
  have leads : ∀ {v' : Volume} {c' : Client}, v.Leads floor c Stock.nowhere v' c' →
      r.Moves floor v c v' c' := fun leads => ⟨leads.mono.toKeeps, leads.spared.mono⟩
  cases step with
  | answered allowed e =>
    obtain ⟨leads, -⟩ := (ends_perform h r allowed).ok e
    exact ⟨leads.toKeeps, leads.spared.mono⟩
  | failed tried e =>
    have allowed : r.Allowed c → r.Moves floor v c v' (r.failed c v') := by
      intro allowed
      rcases (ends_perform h r allowed).error e with ⟨leads', -⟩ | ⟨_, -, moves, -⟩
      · exact leads leads'
      · exact moves
    rcases tried with keeps | ⟨s, rfl⟩
    · exact allowed keeps
    · obtain ⟨_, -, idles, -⟩ := (Volume.meets_openSector h.space.storage reach.there).ends.error e
      exact leads (h.idle idles)

end Request

namespace Volume

variable {disk : Disk} {log : Log} {total : UInt32} {capacity : Nat} {time : Int64}
  {v v' v'' : Volume} {c c' c'' : Client} {r : Request}

/-- The states that steps lead to from a new volume on `disk`. -/
inductive Probed (disk : Disk) (log : Log) (total : UInt32) (capacity : Nat) (time : Int64) :
    Volume → Client → Prop where
  | format {v : Volume} (h : format disk log total capacity time = .ok v) :
    Probed disk log total capacity time v .empty
  | step {v v' : Volume} {c c' : Client} {r : Request} (h : Probed disk log total capacity time v c)
    (step : r.Step v c v' c') : Probed disk log total capacity time v' c'

/-- A run from `v` with `c`, all of whose steps are of the kind `P`. -/
inductive Steps (P : Request → Volume → Client → Volume → Client → Prop) (v : Volume) (c : Client) :
    Volume → Client → Prop where
  | refl : Steps P v c v c
  | tail {v' v'' : Volume} {c' c'' : Client} {r : Request} (h : Steps P v c v' c')
    (step : r.Step v' c' v'' c'') (kind : P r v' c' v'' c'') : Steps P v c v'' c''

theorem Steps.probed {P : Request → Volume → Client → Volume → Client → Prop}
    (h : Steps P v c v' c') (h₀ : Probed disk log total capacity time v c) :
    Probed disk log total capacity time v' c' := by
  induction h with
  | refl => exact h₀
  | tail _ step _ ih => exact ih.step step

theorem Reachable.probed (h : Reachable disk log total capacity time v c) :
    Probed disk log total capacity time v c := by
  induction h with
  | format e => exact .format e
  | answered _ allowed e ih => exact ih.step (.answered allowed e)
  | failed _ allowed e ih => exact ih.step (.failed (.inl allowed) e)

theorem room_of_format (h : format disk log total capacity time = .ok v) :
    1 + bitmapSectors total.toNat < total.toNat := by
  by_contra small
  unfold format at h
  simp only [if_pos (Nat.not_lt.1 small)] at h
  cases h

theorem Probed.room (h : Probed disk log total capacity time v c) :
    1 + bitmapSectors total.toNat < total.toNat := by
  induction h with
  | format e => exact room_of_format e
  | step _ _ ih => exact ih

theorem Follows.refl [Promise] (v : Volume) : v.Follows v :=
  ⟨.refl _, rfl, fun _ _ _ => rfl, Nat.le_refl _, fun _ _ => rfl⟩

/-- What is known of a volume that a run led to: it is based on a new volume `v₀`, and what nobody
has is as it was there. -/
structure Known [Promise] (floor : Nat) (total : UInt32) (time : Int64) (v : Volume) (c : Client) :
    Prop where
  base : ∃ v₀ : Volume, v₀.Fresh total time ∧ v₀.Follows v
  inv : ∃ trees, v.Inv floor c trees
  reach : total.toNat ≤ Promise.sectors

section

variable [Promise] {floor : Nat} {trees : SectorId → Tree}

theorem Known.label (h : v.Known floor total time c) :
    v.superblock = some (Superblock.ofTotal total time) := by
  obtain ⟨v₀, fresh, follows⟩ := h.base
  exact follows.superblock.trans fresh.superblock

theorem Known.reaches (h : v.Known floor total time c) : v.Reaches := ⟨_, h.label, h.reach⟩

theorem Known.moves (h : v.Known floor total time c) (step : r.Step v c v' c') :
    r.Moves floor v c v' c' := by
  obtain ⟨trees, inv⟩ := h.inv
  exact step.moves inv h.reaches

theorem Known.step (h : v.Known floor total time c) (step : r.Step v c v' c') :
    v'.Known floor total time c' := by
  have moves := h.moves step
  obtain ⟨v₀, fresh, follows⟩ := h.base
  exact ⟨⟨v₀, fresh, follows.trans moves.follows⟩, moves.inv, h.reach⟩

/-- The invariant holds in all states, and what nobody has is as it was in the beginning. -/
theorem Probed.known (works : Promise.works → disk.Working Promise.sectors)
    (room : total.toNat ≤ Promise.sectors) (words : Promise.sectors ≤ wordRange32)
    (h : Probed disk log total capacity time v c) : v.Known disk.failures total time c := by
  induction h with
  | format e =>
    have some := room_of_format e
    have cases := format_cases log capacity time works room words some
    rw [e] at cases
    obtain ⟨fresh, since, -⟩ := cases
    exact ⟨⟨_, fresh, .refl _⟩, ⟨_, fresh.inv (fresh.sound (by omega) words room) room since⟩, room⟩
  | step _ step ih => exact ih.step step

end

end Volume

end SectorVolume
