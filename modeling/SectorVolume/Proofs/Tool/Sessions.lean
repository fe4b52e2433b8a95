import SectorVolume.Proofs.Tool.Commands
import SectorVolume.Proofs.Tool.Messages

/-!
# Sessions with the image tool

A session begins with a volume that was set up, and goes on with commands on its image, each with a
cache of its own. A ledger says what the messages of the tool tell about the volume: the inodes that
were made with all bytes of a file, and those that were cut short because the volume was full.
Whatever the session was, everything in the ledger is in the image.
-/

namespace SectorVolume

open SectorVolume.Action

namespace Tool

open Volume (Image Loaded)

variable {files files' : Files} {image : String} {args : List String} {request : Invocation}
  {command : Command} {cache : Nat} {time : Int64} {s : SectorId} {bytes : Bytes}

/-! ## Runs -/

/-- The end of a run whose command ended early. -/
def Stop.outcome (desk : Desk) : Stop → Outcome
  | .report causes => ⟨1, desk.output, reportText causes⟩
  | .breakdown => ⟨101, desk.output, ""⟩

theorem Stop.exitCode_outcome (desk : Desk) (stop : Stop) : (stop.outcome desk).exitCode ≠ 0 := by
  cases stop <;> exact Nat.succ_ne_zero _

/-- A run does its command, and ends as the command does. -/
theorem run_of_reads (reads : readArguments args = .run request)
    {d : Unit → Desk → Prop} {f : Stop → Desk → Prop}
    (h : Ends (perform request time) ⟨files, ""⟩ d f) :
    (∃ desk, d () desk ∧ run args time files = (⟨0, desk.output, ""⟩, desk.files)) ∨
      ∃ stop desk, f stop desk ∧ run args time files = (Stop.outcome desk stop, desk.files) := by
  unfold run
  rw [reads]
  simp only
  cases e : perform request time ⟨files, ""⟩ with
  | ok _ desk => exact .inl ⟨desk, h.ok e, rfl⟩
  | error stop desk =>
    refine .inr ⟨stop, desk, h.error e, ?_⟩
    cases stop <;> rfl

/-- A run of a command that does not fail. -/
theorem run_of_done (reads : readArguments args = .run request) {d : Unit → Desk → Prop}
    (h : Ends (perform request time) ⟨files, ""⟩ d fun _ _ => False) :
    ∃ desk, d () desk ∧ run args time files = (⟨0, desk.output, ""⟩, desk.files) :=
  (run_of_reads reads h).resolve_right fun ⟨_, _, no, _⟩ => no

/-! ## Ledgers -/

/-- What is known of the inodes in a volume. -/
structure Ledger where
  /-- The inodes with all bytes of a file. -/
  whole : List (SectorId × Bytes)
  /-- The inodes with a beginning of the bytes of a file. -/
  cut : List SectorId

namespace Ledger

/-- Nothing is known. -/
def empty : Ledger := ⟨[], []⟩

/-- The inode is known. -/
def Names (l : Ledger) (s : SectorId) : Prop := s ∈ l.cut ∨ ∃ bytes, (s, bytes) ∈ l.whole

/-- An inode less is known. -/
def without (l : Ledger) (s : SectorId) : Ledger :=
  ⟨l.whole.filter fun e => e.1 ≠ s, l.cut.filter (· ≠ s)⟩

end Ledger

/-- How the ledger is kept after a command, from what was printed and reported. -/
inductive Noted (files : Files) (l : Ledger) : Command → Outcome → Ledger → Prop
  /-- `put` prints the sector of an inode with all bytes. -/
  | stored {file : String} {content : Content} {s : SectorId} {outcome : Outcome} :
      files.read file = .ok content → outcome.exitCode = 0 → outcome.output = toString s ++ "\n" →
      Noted files l (.put file) outcome { l with whole := (s, content.toBytes) :: l.whole }
  /-- `put` reports the sector of an inode that the volume had no room for. -/
  | cut {file : String} {written size : Nat} {s : SectorId} {outcome : Outcome} :
      outcome.errors = cutText written size s →
      Noted files l (.put file) outcome { l with cut := s :: l.cut }
  /-- What `rm` was successful on is gone. -/
  | removed {s : SectorId} {outcome : Outcome} :
      outcome.exitCode = 0 → Noted files l (.rm s) outcome (l.without s)
  /-- Nobody has to note anything else. -/
  | nothing {command : Command} {outcome : Outcome} :
      (∀ s, command = .rm s → outcome.exitCode ≠ 0) → Noted files l command outcome l

/-- The files after any commands on an image, and what is known then of the inodes in it. -/
inductive Session (image : String) : Files → Ledger → Prop
  /-- A volume is set up, in whatever was in place of the image before. -/
  | format {files files' : Files} {args : List String} {cache : Nat} {sectors : UInt32} {time : Int64}
      {outcome : Outcome} :
      readArguments args = .run ⟨image, cache, .format sectors⟩ →
      run args time files = (outcome, files') → outcome.exitCode = 0 → Session image files' .empty
  /-- One more command, with a cache of its own. `rm` names an inode that is known, and `get` does
  not write over the image. -/
  | command {files files' : Files} {l l' : Ledger} {args : List String} {cache : Nat}
      {command : Command} {time : Int64} {outcome : Outcome} :
      Session image files l → readArguments args = .run ⟨image, cache, command⟩ →
      (∀ sectors, command ≠ .format sectors) → (∀ s, command = .rm s → l.Names s) →
      (∀ s out, command = .get s out → files.Apart out image) →
      run args time files = (outcome, files') → Noted files l command outcome l' →
      Session image files' l'
  /-- Whatever else is done to the files leaves the image alone. -/
  | elsewhere {files files' : Files} {l : Ledger} :
      Session image files l → files'.read image = files.read image → Session image files' l

/-- Everything in the ledger is in the image. -/
def Ledger.Holds (l : Ledger) (image : String) (files : Files) : Prop :=
  ∃ (_ : Promise) (total : UInt32) (time : Int64) (live : List SectorId) (content : Content),
    files.read image = .ok content ∧ Image total time live l.whole content ∧ ∀ s ∈ l.cut, s ∈ live

variable {l l' : Ledger} {outcome : Outcome}

/-- The image has the same bytes. -/
theorem Ledger.Holds.keep (h : l.Holds image files)
    (kept : ∀ c, files.read image = .ok c → ∃ c', c.Alike c' ∧ files'.read image = .ok c') :
    l.Holds image files' := by
  obtain ⟨_, total, time, live, content, e, held, cut⟩ := h
  obtain ⟨content', alike, e'⟩ := kept content e
  exact ⟨_, total, time, live, content', e', held.congr alike, cut⟩

/-! ## One command -/

/-- Setting up a volume begins a ledger. -/
theorem holds_run_format {sectors : UInt32}
    (reads : readArguments args = .run ⟨image, cache, .format sectors⟩)
    (ran : run args time files = (outcome, files')) (done : outcome.exitCode = 0) :
    Ledger.empty.Holds image files' := by
  let : Promise := ⟨True, sectors.toNat⟩
  have setting : Ends (format image cache sectors time) ⟨files, ""⟩ _ _ := ends_format trivial rfl cache
  rcases run_of_reads reads setting with ⟨desk, ⟨content, e, held, -⟩, ran'⟩ | ⟨stop, desk, -, ran'⟩
  · cases ran.symm.trans ran'
    exact ⟨_, sectors, time, [], content, e, held, nofun⟩
  · cases ran.symm.trans ran'
    exact absurd done (stop.exitCode_outcome desk)

/-- Removing an inode leaves the others. -/
theorem holds_run_rm (h : l.Holds image files)
    (reads : readArguments args = .run ⟨image, cache, .rm s⟩) (named : l.Names s)
    (ran : run args time files = (outcome, files'))
    (noted : Noted files l (.rm s) outcome l') : l'.Holds image files' := by
  obtain ⟨_, total, time₀, live, content, e, held, cut⟩ := id h
  have there : s ∈ live := named.elim (cut s) fun ⟨_, whole⟩ => held.mem_live whole
  have removing : Ends (perform ⟨image, cache, .rm s⟩ time) ⟨files, ""⟩
      (fun _ desk => ∃ content', desk.files.read image = .ok content' ∧
        Image total time₀ (live.erase s) (l.without s).whole content')
      fun _ desk => desk.Keeps files := by
    refine (ends_openImage_of_image held e cache).bind (fun v desk₁ h₁ => ?_) fun _ _ h => h.2.2
    obtain ⟨loaded, kept, -⟩ := h₁
    refine (ends_rm loaded e kept there).mono ?_ fun _ _ no => no.elim
    rintro _ desk₂ ⟨_, content', -, -, e₂, left, -⟩
    exact ⟨content', e₂, left⟩
  rcases run_of_reads reads removing with ⟨desk, ⟨content', e', left⟩, ran'⟩ | ⟨stop, desk, kept, ran'⟩
  · cases ran.symm.trans ran'
    cases noted with
    | removed =>
      refine ⟨_, total, time₀, live.erase s, content', e', left, fun s' hs' => ?_⟩
      obtain ⟨hs', other⟩ := List.mem_filter.1 hs'
      exact (List.mem_erase_of_ne (of_decide_eq_true other)).2 (cut s' hs')
    | nothing failed => exact absurd rfl (failed s rfl)
  · cases ran.symm.trans ran'
    cases noted with
    | removed done => exact absurd done (stop.exitCode_outcome desk)
    | nothing => exact h.keep (kept.read image)

/-- A new inode has all bytes of the file or is reported to have less, or there is none. -/
theorem ends_perform_put [Promise] {total : UInt32} {time₀ : Int64} {live : List SectorId}
    {held : List (SectorId × Bytes)} {content : Content} (h : Image total time₀ live held content)
    (e : files.read image = .ok content) (file : String) :
    Ends (perform ⟨image, cache, .put file⟩ time) ⟨files, ""⟩
      (fun _ desk => ∃ (s : SectorId) (bytes : Bytes) (content' : Content),
        desk.output = toString s ++ "\n" ∧
        (∀ source, files.read file = .ok source → bytes = source.toBytes) ∧
        desk.files.read image = .ok content' ∧
        Image total time₀ (s :: live) ((s, bytes) :: held) content')
      fun stop desk =>
        desk.Keeps files ∧
          (∀ written size s, (stop.outcome desk).errors ≠ cutText written size s) ∨
        ∃ written size s content', (stop.outcome desk).errors = cutText written size s ∧
          desk.files.read image = .ok content' ∧ Image total time₀ (s :: live) held content' := by
  refine (ends_openImage_of_image h e cache).bind (fun v desk₁ h₁ => ?_) ?_
  · obtain ⟨loaded, kept, -, silent⟩ := h₁
    refine (ends_put loaded e kept file).mono ?_ ?_
    · rintro _ desk₂ ⟨s, found, content', shown, read, -, e₂, held, -⟩
      refine ⟨s, found.toBytes, content', by rw [shown, silent, String.empty_append],
        fun source there => ?_, e₂, held⟩
      obtain ⟨source', alike, there'⟩ := kept.read file source there
      cases there'.symm.trans read
      exact alike.toBytes
    · rintro _ desk₂ (⟨kept₂, ⟨cause, -, rfl⟩ | ⟨rfl, -⟩⟩ |
        ⟨s, written, found, content', -, -, -, rfl, e₂, held⟩)
      · exact .inl ⟨kept₂, fun _ _ _ => (cutText_ne_unread file _).symm⟩
      · exact .inl ⟨kept₂, fun _ _ _ => cutText_ne_exhausted.symm⟩
      · exact .inr ⟨written, _, s, content', rfl, e₂, held⟩
  · rintro _ desk₁ ⟨-, rfl, kept⟩
    exact .inl ⟨kept, fun _ _ _ => cutText_ne_empty.symm⟩

/-- What is noted of a file that was copied in is in the image. -/
theorem holds_run_put (h : l.Holds image files) {file : String}
    (reads : readArguments args = .run ⟨image, cache, .put file⟩)
    (ran : run args time files = (outcome, files'))
    (noted : Noted files l (.put file) outcome l') : l'.Holds image files' := by
  obtain ⟨_, total, time₀, live, content, e, held, cut⟩ := id h
  have more : ∀ s : SectorId, ∀ s' ∈ l.cut, s' ∈ s :: live := fun s s' hs' =>
    List.mem_cons_of_mem s (cut s' hs')
  rcases run_of_reads reads (ends_perform_put held e file) with
    ⟨desk, ⟨s, bytes, content', shown, same, e', held'⟩, ran'⟩ |
    ⟨stop, desk, ⟨kept, uncut⟩ | ⟨written, size, s, content', reported, e', held'⟩, ran'⟩
  · cases ran.symm.trans ran'
    cases noted with
    | stored found _ told =>
      cases toString_inj ((String.append_left_inj _).1 (shown.symm.trans told))
      exact ⟨_, total, time₀, s :: live, content', e', same _ found ▸ held', more s⟩
    | cut told => exact absurd told.symm cutText_ne_empty
    | nothing =>
      have fewer := held'.mono (List.subset_cons_self ..)
      exact ⟨_, total, time₀, s :: live, content', e', fewer, more s⟩
  · cases ran.symm.trans ran'
    cases noted with
    | stored _ done => exact absurd done (stop.exitCode_outcome desk)
    | cut told => exact absurd told (uncut _ _ _)
    | nothing => exact h.keep (kept.read image)
  · cases ran.symm.trans ran'
    cases noted with
    | stored _ done => exact absurd done (stop.exitCode_outcome desk)
    | cut told =>
      cases cutText_inj (reported.symm.trans told)
      refine ⟨_, total, time₀, s :: live, content', e', held', fun s' hs' => ?_⟩
      rcases List.mem_cons.1 hs' with rfl | hs'
      · exact List.mem_cons_self
      · exact more s s' hs'
    | nothing => exact ⟨_, total, time₀, s :: live, content', e', held', more s⟩

/-- The other commands leave everything as it is. -/
theorem holds_run_looks (h : l.Holds image files)
    (reads : readArguments args = .run ⟨image, cache, command⟩) (looks : command.Looks)
    (apart : ∀ s out, command = .get s out → files.Apart out image)
    (ran : run args time files = (outcome, files'))
    (noted : Noted files l command outcome l') : l'.Holds image files' := by
  have same : l' = l := by
    cases noted with
    | stored => exact looks.elim
    | cut => exact looks.elim
    | removed => exact looks.elim
    | nothing => rfl
  rw [same]
  refine h.keep fun c e => ?_
  have kept := run_of_ends (P := fun files' => ∃ c', c.Alike c' ∧ files'.read image = .ok c') reads
    (keeps_perform looks apart time e)
  rw [ran] at kept
  exact kept

/-- Whatever the session was, everything in the ledger is in the image. -/
theorem Session.holds (h : Session image files l) : l.Holds image files := by
  induction h with
  | format reads ran done => exact holds_run_format reads ran done
  | @command _ _ _ _ _ _ command _ _ _ reads later named apart ran noted ih =>
    cases command with
    | format sectors => exact absurd rfl (later sectors)
    | put file => exact holds_run_put ih reads ran noted
    | rm s => exact holds_run_rm ih reads (named s rfl) ran noted
    | get s out => exact holds_run_looks ih reads trivial apart ran noted
    | stat s => exact holds_run_looks ih reads trivial apart ran noted
    | info => exact holds_run_looks ih reads trivial apart ran noted
  | elsewhere _ same ih => exact ih.keep fun c e => ⟨c, .refl c, same.trans e⟩

end Tool

end SectorVolume
