import SectorVolume.Failure
import SectorVolume.Device.Content

/-!
# Disks

A disk carries out transfers of whole sectors. A memory disk has a fixed number of sectors; a file
disk is as long as its file, cannot read past the end, and grows when it is written past the end.

A fault plan lets chosen transfers fail; a failed transfer changes nothing on the disk. The disk
keeps a trace of its transfers in order.
-/

namespace SectorVolume

/-- The two directions of a transfer. -/
inductive Direction where
  | read
  | write
  deriving DecidableEq, Repr

/-- A transfer between memory and one sector of a disk. -/
structure Transfer where
  /-- From or to the disk. -/
  direction : Direction
  /-- The sector. -/
  sector : Nat
  deriving DecidableEq, Repr

/-- A rule that lets transfers fail, by their number among those that it is about. -/
structure FaultRule where
  /-- The transfers that the rule is about. -/
  applies : Transfer → Bool
  /-- Whether the `n`-th of them fails, counted from zero. -/
  fails : Nat → Bool
  /-- How many of them there were. -/
  seen : Nat := 0

/-- Whether a transfer fails, and the rules afterwards. Rules are asked in order; a transfer that
one lets fail is not shown to the later ones. -/
def FaultRule.consult (t : Transfer) : List FaultRule → Bool × List FaultRule
  | [] => (false, [])
  | rule :: rules =>
    if rule.applies t then
      if rule.fails rule.seen then (true, { rule with seen := rule.seen + 1 } :: rules)
      else
        let (failed, rules) := consult t rules
        (failed, { rule with seen := rule.seen + 1 } :: rules)
    else
      let (failed, rules) := consult t rules
      (failed, rule :: rules)

/-- What bounds a disk. -/
inductive DiskKind where
  /-- Memory: the number of sectors is fixed. -/
  | memory
  /-- A file: writes past its end make it longer. -/
  | file
  deriving DecidableEq, Repr

/-- A disk. -/
structure Disk where
  /-- What bounds it. -/
  kind : DiskKind
  /-- Its bytes. -/
  content : Content
  /-- The fault plan. -/
  plan : List FaultRule := []
  /-- The transfers so far, with whether they succeeded. -/
  trace : Array (Transfer × Bool) := #[]
  /-- The number of successful reads. -/
  reads : Nat := 0
  /-- The number of successful writes. -/
  writes : Nat := 0

namespace Disk

instance : Inhabited Disk := ⟨{ kind := .memory, content := Content.zeros 0 }⟩

/-- A memory disk of `count` zero sectors. -/
def memory (count : Nat) : Disk :=
  { kind := .memory, content := Content.zeros (sectorSize * count) }

/-- A disk on a file with the given content. -/
def ofFile (content : Content) : Disk := { kind := .file, content }

/-- The number of whole sectors. -/
def sectorCount (d : Disk) : Nat := d.content.length / sectorSize

/-- The bytes of sector `n`. -/
def sector (d : Disk) (n : Nat) : Sector := d.content.sector n

/-- Whether all of sector `n` is on the disk. -/
def holds (d : Disk) (n : Nat) : Bool := n < d.sectorCount

/-- The reason, if there is one, why the disk itself refuses a transfer. A file position beyond
what 64 bits address is a violation. -/
def refusal (d : Disk) (t : Transfer) : Except Violation (Option TransferError) :=
  match d.kind with
  | .memory => .ok (if d.holds t.sector then none else some (.outOfRange t.sector))
  | .file =>
    let position := t.sector * sectorSize
    if position ≥ wordRange64 then .error .productOverflow
    else if position ≥ wordRange64 / 2 then .ok (some .unreachable)
    else if t.direction = .read ∧ ¬ d.holds t.sector then .ok (some .shortRead)
    else .ok none

/-- Decides whether a transfer takes place, by the fault plan first and by the disk itself then, and
notes it in the trace. -/
def grant (t : Transfer) : Action Disk (Option TransferError) := fun d =>
  match d with
  | ⟨kind, content, plan, trace, reads, writes⟩ =>
    let (failed, plan) := FaultRule.consult t plan
    if failed then
      let cause := match t.direction with
        | .read => TransferError.injectedRead
        | .write => TransferError.injectedWrite
      .ok (some cause) ⟨kind, content, plan, trace.push (t, false), reads, writes⟩
    else
      let d : Disk := ⟨kind, content, plan, trace, reads, writes⟩
      match d.refusal t with
      | .error violation => .error (.violation violation) d
      | .ok cause =>
        let d := { d with trace := d.trace.push (t, cause.isNone) }
        .ok cause d

/-- Reads sector `n`. -/
def read (n : Nat) : Action Disk (Except TransferError Sector) := do
  match ← grant ⟨.read, n⟩ with
  | some cause => return .error cause
  | none =>
    modifyGet fun d => (.ok (d.sector n), { d with reads := d.reads + 1 })

/-- Writes sector `n`. -/
def write (n : Nat) (s : Sector) : Action Disk (Except TransferError Unit) := do
  match ← grant ⟨.write, n⟩ with
  | some cause => return .error cause
  | none =>
    modifyGet fun
      | ⟨kind, content, plan, trace, reads, writes⟩ =>
        (.ok (), ⟨kind, content.put n s, plan, trace, reads, writes + 1⟩)

/-- Changes a sector behind the back of the fault plan and the trace; this still counts as a
write. -/
def overwrite (n : Nat) (s : Sector) (d : Disk) : Disk :=
  { d with content := d.content.put n s, writes := d.writes + 1 }

end Disk

end SectorVolume
