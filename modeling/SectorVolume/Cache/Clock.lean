import SectorVolume.Cache.Basic

/-!
# The clock: which slot is replaced next

A hand goes round the ring of slots. In its first revolution it takes the first slot that nobody
uses and that is empty or was not used lately; a slot that was used lately gets a second chance and
loses the mark that says so. If there is no such slot, the second revolution takes the first one
that nobody uses and that is not dirty, and the third one the first that nobody uses. When every
slot is in use the hand stops where it is. The chosen slot becomes the last one of the ring.

A dirty slot keeps its mark until it is written back, and a slot in use is chosen only if there is
no other.
-/

namespace SectorVolume

/-- The rule under which a slot was chosen. -/
inductive Sweep where
  /-- Nobody uses it, and nobody used it lately. -/
  | secondChance
  /-- Nobody uses it, and the disk has its bytes. -/
  | relaxed
  /-- There was no better one. -/
  | forced
  deriving DecidableEq, Repr

/-- The outcome of a selection. -/
structure Selection where
  /-- The chosen slot. -/
  victim : Nat
  /-- The rule that chose it. -/
  sweep : Sweep
  deriving DecidableEq, Repr

namespace Slot

/-- What the first revolution takes. -/
def isIdle (s : Slot) : Bool := s.pins == 0 && !s.isDirty && !s.isAccessed

/-- What the second revolution takes: a slot that can be given away as it is. -/
def isReady (s : Slot) : Bool := s.pins == 0 && !s.isDirty

/-- What the third revolution takes. -/
def isUnused (s : Slot) : Bool := s.pins == 0

end Slot

namespace Clock

/-- Lets the hand visit `count` slots, or fewer if `accepts` allows one of them: that one is taken.
If `demotes` is true, a slot that is passed by loses the mark that says it was used lately. Visited
slots go to the end of the ring one after the other. -/
@[specialize] def turn (accepts : Slot → Bool) (demotes : Bool) (slots : Array Slot)
    (ring : Queue Nat) : Nat → Option Nat × Array Slot × Queue Nat
  | 0 => (none, slots, ring)
  | count + 1 =>
    match ring.rotate with
    | (none, ring) => (none, slots, ring)
    | (some i, ring) =>
      let slot := slots.getD i {}
      if accepts slot then (some i, slots, ring)
      else if demotes && slot.isAccessed then
        turn accepts demotes (slots.modify i (·.mapMark Mark.demoted)) ring count
      else turn accepts demotes slots ring count

end Clock

/-- Chooses the slot to be replaced next. -/
def Cache.select (c : Cache) : Selection × Cache :=
  match c with
  | ⟨slots, ring, index⟩ =>
    let count := slots.size
    match Clock.turn Slot.isIdle true slots ring count with
    | (some victim, slots, ring) => (⟨victim, .secondChance⟩, ⟨slots, ring, index⟩)
    | (none, slots, ring) =>
      match Clock.turn Slot.isReady false slots ring count with
      | (some victim, slots, ring) => (⟨victim, .relaxed⟩, ⟨slots, ring, index⟩)
      | (none, slots, ring) =>
        match Clock.turn Slot.isUnused false slots ring count with
        | (some victim, slots, ring) => (⟨victim, .forced⟩, ⟨slots, ring, index⟩)
        | (none, slots, ring) =>
          let (head, ring) := ring.rotate
          (⟨head.getD 0, .forced⟩, ⟨slots, ring, index⟩)

end SectorVolume
