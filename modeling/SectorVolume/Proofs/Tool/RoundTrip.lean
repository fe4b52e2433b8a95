import SectorVolume.Proofs.Tool.Sessions

/-!
# Reading back and giving back

After any session the files that were stored whole are read back byte by byte, and removing one of
them frees exactly the sectors that it needed. Both are told by what the tool prints and by the
files that it leaves.
-/

namespace SectorVolume

open SectorVolume.Action

namespace Tool

open Volume (Image Loaded freeIn)

variable {files : Files} {image out : String} {args : List String} {cache : Nat} {time : Int64}
  {s : SectorId} {bytes : Bytes} {l : Ledger} {content : Content}

/-- However the image is looked at, so many sectors are free. -/
def ShowsFree (image : String) (files : Files) (sb : Superblock) (free : Nat) : Prop :=
  ∀ (args : List String) (cache : Nat) (time : Int64),
    readArguments args = .run ⟨image, cache, .info⟩ → Cache.Fits cache →
    ∃ files', run args time files = (⟨0, overview sb free, ""⟩, files')

section

variable [Promise] {total : UInt32} {time₀ : Int64} {live : List SectorId}
  {held : List (SectorId × Bytes)}

/-- What a command does that finds the image in order and has a cache to open it with. -/
theorem ends_open_bind (h : Image total time₀ live held content) (e : files.read image = .ok content)
    (fits : Cache.Fits cache) {k : Volume → Work Unit} {d : Unit → Desk → Prop}
    (hk : ∀ v desk, v.Loaded total time₀ live held content → desk.Keeps files →
      files.Spares image desk.files → desk.output = "" → Ends (k v) desk d fun _ _ => False) :
    Ends (openImage image cache >>= k) ⟨files, ""⟩ d fun _ _ => False :=
  (ends_openImage_of_image h e cache).bind
    (fun v desk ⟨loaded, kept, spares, silent⟩ => hk v desk loaded kept spares silent)
    fun _ _ failed => failed.1 fits

/-- A volume is set up wherever a file can be written. -/
theorem image_of_format (works : Promise.works) (sectors : Promise.sectors = total.toNat)
    (room : 1 + bitmapSectors total.toNat < total.toNat) (time : Int64)
    (writable : files.Writable image)
    (reads : readArguments args = .run ⟨image, cache, .format total⟩) (fits : Cache.Fits cache) :
    ∃ outcome files' content, run args time files = (outcome, files') ∧ outcome.exitCode = 0 ∧
      files.Spares image files' ∧ files'.read image = .ok content ∧
      Image total time [] [] content := by
  have setting : Ends (format image cache total time) ⟨files, ""⟩ _ _ :=
    ends_format works sectors cache
  rcases run_of_reads reads setting with ⟨desk, ⟨content, e, new, spares, -⟩, ran⟩ | ⟨_, _, no, -⟩
  · exact ⟨_, desk.files, content, ran, rfl, spares, e, new⟩
  · rcases no with unwritable | unfit | small
    · exact absurd writable unwritable
    · exact absurd fits unfit
    · omega

/-- A file is stored whole if there is room for it. It takes the sectors that its bytes need, and the
one of the inode. -/
theorem put_of_image (time : Int64) (h : Image total time₀ live held content)
    (e : files.read image = .ok content) {file : String} {source : Content}
    (found : files.read file = .ok source) (whole : source.toBytes = bytes)
    (small : bytes.size ≤ maxFileSize)
    (room : totalSectors (dataSectors bytes.size) < freeIn total content)
    (reads : readArguments args = .run ⟨image, cache, .put file⟩) (fits : Cache.Fits cache) :
    ∃ s files' content', run args time files = (⟨0, toString s ++ "\n", ""⟩, files') ∧
      files.Spares image files' ∧ files'.read image = .ok content' ∧
      Image total time₀ (s :: live) ((s, bytes) :: held) content' ∧
      freeIn total content' + (totalSectors (dataSectors bytes.size) + 1) = freeIn total content := by
  have storing : Ends (perform ⟨image, cache, .put file⟩ time) ⟨files, ""⟩
      (fun _ desk => ∃ s content', desk.output = toString s ++ "\n" ∧
        files.Spares image desk.files ∧ desk.files.read image = .ok content' ∧
        Image total time₀ (s :: live) ((s, bytes) :: held) content' ∧
        freeIn total content' + (totalSectors (dataSectors bytes.size) + 1) = freeIn total content)
      fun _ _ => False := by
    refine ends_open_bind h e fits fun v desk₁ loaded kept spares silent => ?_
    obtain ⟨source₁, alike, found₁⟩ := kept.read file source found
    replace whole : source₁.toBytes = bytes := alike.toBytes.trans whole
    refine (ends_put loaded e kept file).mono ?_ ?_
    · rintro _ desk₂ ⟨s, source₂, content', shown, read, spares₂, e₂, held₂, less⟩
      cases found₁.symm.trans read
      rw [whole] at held₂ less
      exact ⟨s, content', by rw [shown, silent, String.empty_append], spares.trans spares₂, e₂, held₂,
        less⟩
    · rintro _ desk₂ (⟨-, ⟨cause, unread, -⟩ | ⟨-, none⟩⟩ | ⟨_, _, source₂, _, read, -, full, -⟩)
      · cases found₁.symm.trans unread
      · omega
      · cases found₁.symm.trans read
        rw [whole] at full
        exact Nat.not_le_of_lt room (full small)
  obtain ⟨desk, ⟨s, content', shown, rest⟩, ran⟩ := run_of_done reads storing
  exact ⟨s, desk.files, content', shown ▸ ran, rest⟩

/-- It is noted in the ledger of a session. -/
theorem Session.put (session : Session image files l) (time : Int64)
    (h : Image total time₀ live l.whole content) (e : files.read image = .ok content) {file : String}
    {source : Content} (found : files.read file = .ok source) (whole : source.toBytes = bytes)
    (small : bytes.size ≤ maxFileSize)
    (room : totalSectors (dataSectors bytes.size) < freeIn total content)
    (reads : readArguments args = .run ⟨image, cache, .put file⟩) (fits : Cache.Fits cache) :
    ∃ s files' content', run args time files = (⟨0, toString s ++ "\n", ""⟩, files') ∧
      Session image files' { l with whole := (s, bytes) :: l.whole } ∧ files.Spares image files' ∧
      files'.read image = .ok content' ∧
      Image total time₀ (s :: live) ((s, bytes) :: l.whole) content' ∧
      freeIn total content' + (totalSectors (dataSectors bytes.size) + 1) = freeIn total content := by
  obtain ⟨s, files', content', ran, rest⟩ := put_of_image time h e found whole small room reads fits
  have noted : Noted files l (.put file) ⟨0, toString s ++ "\n", ""⟩
      { l with whole := (s, bytes) :: l.whole } := whole ▸ .stored found rfl rfl
  exact ⟨s, files', content', ran, session.command reads nofun nofun nofun ran noted, rest⟩

theorem showsFree_of_image (h : Image total time₀ live held content)
    (e : files.read image = .ok content) :
    ShowsFree image files (.ofTotal total time₀) (freeIn total content) := by
  intro args cache time reads fits
  have showing : Ends (perform ⟨image, cache, .info⟩ time) ⟨files, ""⟩
      (fun _ desk => desk.output = overview (.ofTotal total time₀) (freeIn total content))
      fun _ _ => False := by
    refine ends_open_bind h e fits fun v desk₁ loaded kept _ silent => ?_
    refine (ends_info loaded e kept).mono (fun _ desk₂ shown => ?_) fun _ _ no => no
    rw [shown, silent, String.empty_append]
  obtain ⟨desk, shown, ran⟩ := run_of_done reads showing
  exact ⟨desk.files, shown ▸ ran⟩

theorem get_of_image (time : Int64) (h : Image total time₀ live held content)
    (e : files.read image = .ok content) (hs : (s, bytes) ∈ held)
    (reads : readArguments args = .run ⟨image, cache, .get s out⟩) (fits : Cache.Fits cache)
    (writable : files.Writable out) :
    ∃ files', run args time files = (⟨0, s!"{bytes.size} byte(s) -> {out}\n", ""⟩, files') ∧
      files'.bytesAt out = .ok (bytes.size, bytes) := by
  have copying : Ends (perform ⟨image, cache, .get s out⟩ time) ⟨files, ""⟩
      (fun _ desk => desk.output = s!"{bytes.size} byte(s) -> {out}\n" ∧
        desk.files.bytesAt out = .ok (bytes.size, bytes))
      fun _ _ => False := by
    refine ends_open_bind h e fits fun v desk₁ loaded kept _ silent => ?_
    refine (ends_get loaded e kept hs writable).mono (fun _ desk₂ h₂ => ⟨?_, h₂.2⟩) fun _ _ no => no
    rw [h₂.1, silent, String.empty_append]
    rfl
  obtain ⟨desk, ⟨shown, copied⟩, ran⟩ := run_of_done reads copying
  exact ⟨desk.files, shown ▸ ran, copied⟩

theorem rm_of_image (time : Int64) (h : Image total time₀ live held content)
    (e : files.read image = .ok content) (hs : (s, bytes) ∈ held) {freed : Nat}
    (count : freed = totalSectors (dataSectors bytes.size) + 1)
    (reads : readArguments args = .run ⟨image, cache, .rm s⟩) (fits : Cache.Fits cache) :
    ∃ files', run args time files =
        (⟨0, s!"removed inode {s}, released {freed} sector(s)" ++ "\n", ""⟩, files') ∧
      files.Spares image files' ∧
      ShowsFree image files' (.ofTotal total time₀) (freeIn total content + freed) := by
  have removing : Ends (perform ⟨image, cache, .rm s⟩ time) ⟨files, ""⟩
      (fun _ desk => desk.output = s!"removed inode {s}, released {freed} sector(s)" ++ "\n" ∧
        files.Spares image desk.files ∧
        ShowsFree image desk.files (.ofTotal total time₀) (freeIn total content + freed))
      fun _ _ => False := by
    refine ends_open_bind h e fits fun v desk₁ loaded kept spares silent => ?_
    refine (ends_rm loaded e kept (h.mem_live hs)).mono ?_ fun _ _ no => no
    rintro _ desk₂ ⟨freed', content', shown, spares₂, e₂, left, more, exactly⟩
    cases (exactly bytes hs).trans count.symm
    rw [shown, silent, String.empty_append, ← more]
    exact ⟨rfl, spares.trans spares₂, showsFree_of_image left e₂⟩
  obtain ⟨desk, ⟨shown, rest⟩, ran⟩ := run_of_done reads removing
  exact ⟨desk.files, shown ▸ ran, rest⟩

end

/-- What it takes for `get` to succeed: a cache that there can be, an image with a first sector, and
an output that can be written. -/
theorem needs_of_get
    (reads : readArguments args = .run ⟨image, cache, .get s out⟩)
    (e : files.read image = .ok content) (done : (run args time files).1.exitCode = 0) :
    Cache.Fits cache ∧ content.Has 0 ∧ ∃ c, (run args time files).2.read out = .ok c := by
  have copying : Ends (perform ⟨image, cache, .get s out⟩ time) ⟨files, ""⟩
      (fun _ desk => Cache.Fits cache ∧ content.Has 0 ∧ ∃ c, desk.files.read out = .ok c)
      fun _ _ => True := by
    refine (ends_openImage e).bind (fun v desk₁ h₁ => ?_) fun _ _ _ => trivial
    obtain ⟨fits, has⟩ := Volume.needs_of_open h₁.1
    refine (ends_trivial _ _).bind (fun r desk₂ _ => ?_) fun _ _ _ => trivial
    refine ends_saveFile.bind (fun _ desk₃ saved => ?_) fun _ _ _ => trivial
    refine (ends_printLine _).mono (fun _ desk₄ h₄ => ⟨fits, has, .ofBytes r.1, ?_⟩) fun _ _ h => h
    rw [h₄.1]
    exact Files.read_of_write saved.files
  rcases run_of_reads reads copying with ⟨desk, needs, ran⟩ | ⟨stop, desk, -, ran⟩
  · rw [ran]
    exact needs
  · rw [ran] at done
    exact absurd done (stop.exitCode_outcome desk)

/-- Whatever the session was, what `put` stored is read back by `get`, byte by byte, from every such
image and with every cache that there can be, as long as the output can be written. When it is
removed exactly the sectors that its bytes needed are free again, and the one of the inode. -/
theorem Session.round_trip (h : Session image files l) (hs : (s, bytes) ∈ l.whole) :
    (∀ (args : List String) (cache : Nat) (out : String) (time : Int64),
      readArguments args = .run ⟨image, cache, .get s out⟩ → Cache.Fits cache → files.Writable out →
      ∃ files', run args time files = (⟨0, s!"{bytes.size} byte(s) -> {out}\n", ""⟩, files') ∧
        files'.bytesAt out = .ok (bytes.size, bytes)) ∧
    ∃ (sb : Superblock) (free freed : Nat), ShowsFree image files sb free ∧
      freed = totalSectors (dataSectors bytes.size) + 1 ∧
      ∀ (args : List String) (cache : Nat) (time : Int64),
        readArguments args = .run ⟨image, cache, .rm s⟩ → Cache.Fits cache →
        ∃ files', run args time files =
            (⟨0, s!"removed inode {s}, released {freed} sector(s)" ++ "\n", ""⟩, files') ∧
          ShowsFree image files' sb (free + freed) := by
  obtain ⟨_, total, time₀, live, content, e, held, -⟩ := h.holds
  refine ⟨fun args cache out time reads fits writable => ?_, _, _, _, showsFree_of_image held e, rfl,
    fun args cache time reads fits => ?_⟩
  · exact get_of_image time held e hs reads fits writable
  · obtain ⟨files', ran, -, free⟩ := rm_of_image time held e hs rfl reads fits
    exact ⟨files', ran, free⟩

/-! ## A session with two files -/

theorem plain_image : Files.Plain "v" :=
  Files.plain_of_single (by decide) (by decide) (by simp) (by simp)

theorem plain_file : Files.Plain "f" :=
  Files.plain_of_single (by decide) (by decide) (by simp) (by simp)

theorem plain_other : Files.Plain "g" :=
  Files.plain_of_single (by decide) (by decide) (by simp) (by simp)

theorem plain_output : Files.Plain "o" :=
  Files.plain_of_single (by decide) (by decide) (by simp) (by simp)

/-- The numbers below `n` as bytes. -/
def counting (n : Nat) : Bytes := (Array.range n).map UInt8.ofNat

theorem size_counting (n : Nat) : (counting n).size = n := by
  unfold counting
  rw [Array.size_map, Array.size_range]

/-- Two files in the working directory, one that needs two sectors and one that needs three. -/
def twoFiles : Files :=
  ⟨[(["f"], .file (.ofBytes (counting 1000))), (["g"], .file (.ofBytes (counting 1300)))]⟩

/-- Both files are stored, and the first one is removed again. -/
theorem session_of_two_files : ∃ (s₁ s₂ : SectorId) (outcome : Outcome)
    (files₁ files₂ files₃ files₄ : Files),
    run ["-i", "v", "format", "--sectors", "16"] 0 twoFiles = (outcome, files₁) ∧
      outcome.exitCode = 0 ∧
      run ["-i", "v", "put", "-f", "f"] 0 files₁ = (⟨0, toString s₁ ++ "\n", ""⟩, files₂) ∧
      run ["-i", "v", "put", "-f", "g"] 0 files₂ = (⟨0, toString s₂ ++ "\n", ""⟩, files₃) ∧
      run ["-i", "v", "rm", "--inode", toString s₁] 0 files₃ =
        (⟨0, s!"removed inode {s₁}, released {3} sector(s)" ++ "\n", ""⟩, files₄) ∧
      files₄.Writable "o" ∧ Session "v" files₄ ⟨[(s₂, counting 1300)], []⟩ := by
  let : Promise := ⟨True, 16⟩
  have formats : readArguments ["-i", "v", "format", "--sectors", "16"] =
      .run ⟨"v", 64, .format 16⟩ := by decide
  have puts : readArguments ["-i", "v", "put", "-f", "f"] = .run ⟨"v", 64, .put "f"⟩ := by decide
  have puts' : readArguments ["-i", "v", "put", "-f", "g"] = .run ⟨"v", 64, .put "g"⟩ := by decide
  have apart : ∀ files : Files, files.Apart "v" "f" := plain_image.apart plain_file (by decide)
  have apart' : ∀ files : Files, files.Apart "v" "g" := plain_image.apart plain_other (by decide)
  have writable : twoFiles.Writable "v" := ⟨_, plain_image.resolveFile _, nofun⟩
  have output : twoFiles.Writable "o" := ⟨_, plain_output.resolveFile _, nofun⟩
  have three : 3 = totalSectors (dataSectors (counting 1000).size) + 1 := by
    rw [size_counting]
    decide
  have four : 4 = totalSectors (dataSectors (counting 1300).size) + 1 := by
    rw [size_counting]
    decide
  obtain ⟨outcome, files₁, content₁, ran₁, done, spares₁, e₁, new⟩ := image_of_format trivial rfl
    (by decide) 0 writable formats (by decide)
  have free₁ : freeIn 16 content₁ = 14 := new.freeIn_eq
  have f₁ := spares₁.read "f" _ (apart _) (Files.read_eq_ok_iff.2 ⟨_, plain_file.resolve _, rfl⟩)
  have g₁ := spares₁.read "g" _ (apart' _) (Files.read_eq_ok_iff.2 ⟨_, plain_other.resolve _, rfl⟩)
  obtain ⟨s₁, files₂, content₂, ran₂, session₂, spares₂, e₂, held₂, free₂⟩ :=
    (Session.format formats ran₁ done).put 0 new e₁ f₁ (Content.toBytes_ofBytes _)
      (by rw [size_counting]; decide) (by omega) puts (by decide)
  have g₂ := spares₂.read "g" _ (apart' _) g₁
  obtain ⟨s₂, files₃, content₃, ran₃, session₃, spares₃, e₃, held₃, -⟩ :=
    session₂.put 0 held₂ e₂ g₂ (Content.toBytes_ofBytes _)
      (by rw [size_counting]; decide) (by omega) puts' (by decide)
  have mem : (s₁, counting 1000) ∈ [(s₂, counting 1300), (s₁, counting 1000)] :=
    List.mem_cons_of_mem _ List.mem_cons_self
  have removes : readArguments ["-i", "v", "rm", "--inode", toString s₁] = .run ⟨"v", 64, .rm s₁⟩ :=
    readArguments_rm (by decide) (by decide) s₁
  obtain ⟨files₄, ran₄, spares₄, -⟩ := rm_of_image 0 held₃ e₃ mem three removes (by decide)
  have session₄ := session₃.command removes nofun
    (fun s e => by cases e; exact .inr ⟨_, mem⟩) nofun ran₄ (.removed rfl)
  have other : s₂ ≠ s₁ := fun e => (List.nodup_cons.1 held₃.nodup).1 (e ▸ List.mem_cons_self)
  have left : Ledger.without ⟨[(s₂, counting 1300), (s₁, counting 1000)], []⟩ s₁ =
      ⟨[(s₂, counting 1300)], []⟩ := by
    simp [Ledger.without, other]
  have agree := ((spares₁.agree.trans spares₂.agree).trans spares₃.agree).trans spares₄.agree
  exact ⟨s₁, s₂, outcome, files₁, files₂, files₃, files₄, ran₁, done, ran₂, ran₃, ran₄,
    agree.writable.2 output, left ▸ session₄⟩

/-- The file that is left is read back by `get` and given back by `rm`. -/
theorem Session.round_trip_of_two_files : ∃ (s₁ s₂ : SectorId) (outcome : Outcome)
    (files₁ files₂ files₃ files₄ : Files),
    run ["-i", "v", "format", "--sectors", "16"] 0 twoFiles = (outcome, files₁) ∧
      run ["-i", "v", "put", "-f", "f"] 0 files₁ = (⟨0, toString s₁ ++ "\n", ""⟩, files₂) ∧
      run ["-i", "v", "put", "-f", "g"] 0 files₂ = (⟨0, toString s₂ ++ "\n", ""⟩, files₃) ∧
      run ["-i", "v", "rm", "--inode", toString s₁] 0 files₃ =
        (⟨0, s!"removed inode {s₁}, released {3} sector(s)" ++ "\n", ""⟩, files₄) ∧
      (∃ files', run ["-i", "v", "get", "--inode", toString s₂, "-o", "o"] 0 files₄ =
          (⟨0, "1300 byte(s) -> o\n", ""⟩, files') ∧
        files'.bytesAt "o" = .ok (1300, counting 1300)) ∧
      ∃ files', run ["-i", "v", "rm", "--inode", toString s₂] 0 files₄ =
          (⟨0, s!"removed inode {s₂}, released {4} sector(s)" ++ "\n", ""⟩, files') := by
  obtain ⟨s₁, s₂, outcome, files₁, files₂, files₃, files₄, ran₁, -, ran₂, ran₃, ran₄, writable,
    session⟩ := session_of_two_files
  obtain ⟨gets, _, _, freed, -, count, rms⟩ :=
    session.round_trip (List.mem_singleton_self (s₂, counting 1300))
  have four : freed = 4 := by
    rw [count, size_counting]
    decide
  obtain ⟨files₅, ran₅, copied⟩ := gets _ 64 "o" 0
    (readArguments_get (by decide) (by decide) (by decide) (by decide) s₂) (by decide) writable
  obtain ⟨files₆, ran₆, -⟩ := rms _ 64 0 (readArguments_rm (by decide) (by decide) s₂) (by decide)
  rw [size_counting] at ran₅ copied
  rw [four] at ran₆
  exact ⟨s₁, s₂, outcome, files₁, files₂, files₃, files₄, ran₁, ran₂, ran₃, ran₄,
    ⟨files₅, ran₅, copied⟩, files₆, ran₆⟩

/-! ## A volume with room for one inode -/

/-- An empty file in the working directory. -/
def oneEmptyFile : Files := ⟨[(["f"], .file (Content.zeros 0))]⟩

/-- It is stored in the only sector that there is for an inode. -/
theorem session_of_empty_file : ∃ outcome files₁ files₂,
    run ["-i", "v", "format", "--sectors", "3"] 0 oneEmptyFile = (outcome, files₁) ∧
      outcome.exitCode = 0 ∧ run ["-i", "v", "put", "-f", "f"] 0 files₁ = (⟨0, "2\n", ""⟩, files₂) ∧
      Session "v" files₂ ⟨[(2, #[])], []⟩ := by
  let : Promise := ⟨True, 3⟩
  have empty : (Content.zeros 0).toBytes = #[] := by rw [Content.toBytes_eq_span]; exact span_zero ..
  have formats : readArguments ["-i", "v", "format", "--sectors", "3"] =
      .run ⟨"v", 64, .format 3⟩ := by decide
  have puts : readArguments ["-i", "v", "put", "-f", "f"] = .run ⟨"v", 64, .put "f"⟩ := by decide
  have writable : oneEmptyFile.Writable "v" := ⟨_, plain_image.resolveFile _, nofun⟩
  obtain ⟨outcome, files₁, content, ran, done, spares, e, new⟩ := image_of_format trivial rfl
    (by decide) 0 writable formats (by decide)
  have free : freeIn 3 content = 1 := new.freeIn_eq
  have there := spares.read "f" _ (plain_image.apart plain_file (by decide) _)
    (Files.read_eq_ok_iff.2 ⟨_, plain_file.resolve _, rfl⟩)
  obtain ⟨s, files₂, content₂, ran₂, session, -, -, held, -⟩ :=
    (Session.format formats ran done).put 0 new e there empty (by decide) (by rw [free]; decide) puts
      (by decide)
  obtain ⟨low, high⟩ := held.inside (List.mem_singleton_self s)
  have low : 2 ≤ s.toNat := low
  have high : s.toNat < 3 := high
  obtain rfl : s = 2 := UInt32.toNat_inj.1 (by show s.toNat = 2; omega)
  exact ⟨outcome, files₁, files₂, ran, done, ran₂, session⟩

/-- The working directory is no file. -/
theorem read_dot_ne_ok (files : Files) (content : Content) : files.read "." ≠ .ok content := by
  intro read
  obtain ⟨place, resolved, file⟩ := Files.read_eq_ok_iff.1 read
  have names : Files.names "." = ["."] :=
    Files.names_of_single (by decide) (by decide) (by decide) (by decide)
  have origin : Files.origin "." = [] := if_neg (by simp)
  have followed := (Files.resolve_eq_ok_iff.1 resolved).2
  rw [names, origin] at followed
  obtain ⟨-, -, here⟩ := Files.follow_cons_eq_ok_iff.1 followed
  cases here
  cases file

/-- `get` fails if the cache would not fit into the memory, if the output is a directory, or if the
output of an earlier `get` stands in place of the image. -/
theorem exists_get_that_fails : ∃ outcome files₁ files₂ files₃,
    run ["-i", "v", "format", "--sectors", "3"] 0 oneEmptyFile = (outcome, files₁) ∧
      outcome.exitCode = 0 ∧ run ["-i", "v", "put", "-f", "f"] 0 files₁ = (⟨0, "2\n", ""⟩, files₂) ∧
      (run ["-i", "v", "-c", "1152921504606846976", "get", "--inode", "2", "-o", "o"] 0
        files₂).1.exitCode ≠ 0 ∧
      (run ["-i", "v", "get", "--inode", "2", "-o", "."] 0 files₂).1.exitCode ≠ 0 ∧
      run ["-i", "v", "get", "--inode", "2", "-o", "v"] 0 files₂ =
        (⟨0, "0 byte(s) -> v\n", ""⟩, files₃) ∧
      (run ["-i", "v", "get", "--inode", "2", "-o", "o"] 0 files₃).1.exitCode ≠ 0 := by
  obtain ⟨outcome, files₁, files₂, ran₁, done, ran₂, stored⟩ := session_of_empty_file
  obtain ⟨_, total, time₀, live, content, e, held, -⟩ := stored.holds
  have large : readArguments
      ["-i", "v", "-c", "1152921504606846976", "get", "--inode", "2", "-o", "o"] =
      .run ⟨"v", 2 ^ 60, .get 2 "o"⟩ := by decide
  have directory : readArguments ["-i", "v", "get", "--inode", "2", "-o", "."] =
      .run ⟨"v", 64, .get 2 "."⟩ := by decide
  have replacing : readArguments ["-i", "v", "get", "--inode", "2", "-o", "v"] =
      .run ⟨"v", 64, .get 2 "v"⟩ := by decide
  have again : readArguments ["-i", "v", "get", "--inode", "2", "-o", "o"] =
      .run ⟨"v", 64, .get 2 "o"⟩ := by decide
  obtain ⟨files₃, ran₃, copied⟩ := get_of_image 0 held e (List.mem_singleton_self (2, #[]))
    replacing (by decide) (Files.writable_of_read e)
  refine ⟨outcome, files₁, files₂, files₃, ran₁, done, ran₂, fun done => ?_, fun done => ?_, ran₃,
    fun done => ?_⟩
  · exact absurd (needs_of_get large e done).1 (by decide)
  · obtain ⟨-, -, c, read⟩ := needs_of_get directory e done
    exact read_dot_ne_ok _ c read
  · unfold Files.bytesAt at copied
    cases read : files₃.read "v" with
    | error cause =>
      rw [read] at copied
      cases copied
    | ok c =>
      rw [read] at copied
      obtain ⟨-, has, -⟩ := needs_of_get again read done
      have length : c.length = 0 := congrArg Prod.fst (Except.ok.inj copied)
      unfold Content.Has at has
      rw [length] at has
      exact absurd has (by decide)

end Tool

end SectorVolume
