import SectorVolume.Proofs.Device.Content
import SectorVolume.Tool.Files

/-!
# Reading and replacing files

A path leads to the same place as long as the directories stay the same, and replacing a file leaves
them alone. A file that can be read can be replaced; then it has the new content, and every other
file the one that it had.
-/

namespace SectorVolume

namespace Files

variable {fs fs' fs'' : Files} {path other : String} {place q : Place} {c c' : Content}

theorem lookup_insert (fs : Files) (place : Place) (entry : Entry) (p : Place)
    (inner : isOuter place = false) :
    (fs.insert place entry).lookup p = if p = place then some entry else fs.lookup p := by
  unfold insert lookup
  by_cases e : p = place
  · subst e
    rw [if_pos rfl, if_neg (by rw [inner]; decide), List.lookup_cons, beq_self_eq_true]
  · rw [if_neg e]
    split
    · rfl
    · rw [List.lookup_cons, beq_false_of_ne e]
      show (fs.entries.filter _).lookup p = fs.entries.lookup p
      induction fs.entries with
      | nil => rfl
      | cons entry rest ih =>
        obtain ⟨p', e'⟩ := entry
        by_cases same : p' = place
        · subst same
          rw [List.filter_cons_of_neg (by simp), ih, List.lookup_cons, beq_false_of_ne e]
        · rw [List.filter_cons_of_pos (by simpa using same), List.lookup_cons, List.lookup_cons, ih]

/-! ## Paths -/

/-- The directories are the same. -/
def Agree (fs fs' : Files) : Prop :=
  ∀ p, fs'.lookup p = some .directory ↔ fs.lookup p = some .directory

theorem Agree.refl (fs : Files) : fs.Agree fs := fun _ => .rfl

theorem Agree.trans (h : fs.Agree fs') (h' : fs'.Agree fs'') : fs.Agree fs'' := fun p =>
  (h' p).trans (h p)

/-- A name is followed out of a directory only. -/
theorem follow_cons_eq_ok_iff {p : Place} {name : String} {rest : List String} :
    fs.follow p (name :: rest) = .ok q ↔ fs.lookup p = some .directory ∧
      name.utf8ByteSize ≤ longestName ∧ fs.follow (enter p name) rest = .ok q := by
  rw [follow]
  cases fs.lookup p with
  | none => simp
  | some e =>
    cases e with
    | file c => simp
    | directory =>
      by_cases long : name.utf8ByteSize > longestName
      · simp [long, Nat.not_le.2 long]
      · simp [long, Nat.not_lt.1 long]

theorem Agree.follow (h : fs.Agree fs') (p : Place) (names : List String) :
    fs'.follow p names = .ok q ↔ fs.follow p names = .ok q := by
  induction names generalizing p with
  | nil => rw [Files.follow, Files.follow]
  | cons name rest ih => rw [follow_cons_eq_ok_iff, follow_cons_eq_ok_iff, h p, ih]

theorem resolve_eq_ok_iff : fs.resolve path = .ok q ↔
    checkPath path = .ok () ∧ fs.follow (origin path) (names path) = .ok q := by
  unfold resolve
  cases checkPath path with
  | error e => exact iff_of_false (fun h => nomatch h) fun h => nomatch h.1
  | ok u => exact ⟨fun h => ⟨rfl, h⟩, fun h => h.2⟩

theorem Agree.resolve (h : fs.Agree fs') : fs'.resolve path = .ok q ↔ fs.resolve path = .ok q := by
  rw [resolve_eq_ok_iff, resolve_eq_ok_iff, h.follow]

/-- The path can only be that of a directory because of the slashes that it ends with. -/
def Slashed (path : String) : Prop :=
  ∃ name, (bareNames path).getLast? = some name ∧ bareNames path ≠ names path ∧ name ≠ "." ∧ name ≠ ".."

theorem resolveFile_eq_ok_iff :
    fs.resolveFile path = .ok q ↔ ¬ Slashed path ∧ fs.resolve path = .ok q := by
  rw [resolve_eq_ok_iff]
  unfold resolveFile Slashed
  cases checkPath path with
  | error e => exact iff_of_false (fun h => nomatch h) fun h => nomatch h.2.1
  | ok u =>
    cases last : (bareNames path).getLast? with
    | none => exact ⟨fun h => ⟨nofun, rfl, h⟩, fun h => h.2.2⟩
    | some name =>
      by_cases plain : bareNames path = names path ∨ name = "." ∨ name = ".."
      · have unslashed : ¬ ∃ name', some name = some name' ∧ bareNames path ≠ names path ∧
            name' ≠ "." ∧ name' ≠ ".." := by
          rintro ⟨_, ⟨⟩, other, dot, dots⟩
          exact plain.elim other fun e => e.elim dot dots
        simp only [bind, Except.bind, if_pos plain]
        exact ⟨fun h => ⟨unslashed, trivial, h⟩, fun h => h.2.2⟩
      · refine iff_of_false (fun h => ?_) fun h => h.1 ⟨name, rfl, ?_⟩
        · simp only [bind, Except.bind, if_neg plain] at h
          split at h <;> cases h
        · simp only [not_or] at plain
          exact plain

theorem Agree.resolveFile (h : fs.Agree fs') :
    fs'.resolveFile path = .ok q ↔ fs.resolveFile path = .ok q := by
  rw [resolveFile_eq_ok_iff, resolveFile_eq_ok_iff, h.resolve]

/-- The path is a name in the working directory. -/
structure Plain (path : String) : Prop where
  check : checkPath path = .ok ()
  origin : origin path = []
  names : names path = [path]
  enter : enter [] path = [path]
  short : path.utf8ByteSize ≤ longestName

theorem Plain.resolve (h : Plain path) (fs : Files) : fs.resolve path = .ok [path] := by
  refine resolve_eq_ok_iff.2 ⟨h.check, ?_⟩
  rw [h.origin, h.names]
  exact follow_cons_eq_ok_iff.2 ⟨rfl, h.short, by rw [h.enter]; rfl⟩

/-- A single character, which is no slash, is the only name in a path. -/
theorem names_of_single (some : String.Pos.Raw.atEnd path 0 = false)
    (other : String.Pos.Raw.get path 0 ≠ '/')
    (last : String.Pos.Raw.atEnd path (String.Pos.Raw.next path 0) = true)
    (whole : String.Pos.Raw.extract path 0 (String.Pos.Raw.next path 0) = path) :
    names path = [path] := by
  have slash : String.Pos.Raw.get "/" 0 = '/' := by decide
  have start : String.Pos.Raw.unoffsetBy 0 0 = 0 := by decide
  have first : ¬ (String.Pos.Raw.get path 0 == String.Pos.Raw.get "/" 0) = true := by
    rw [slash, beq_iff_eq]
    exact other
  unfold names String.splitOn
  rw [if_neg (by decide), String.splitOnAux]
  simp only
  rw [if_neg (by rw [some]; decide), if_neg first, String.splitOnAux, start, if_pos last]
  exact congrArg (fun name => [name]) whole

/-- A single character is a name in the working directory, if it may stand in a name. -/
theorem plain_of_single
    (single : String.Pos.Raw.atEnd path 0 = false ∧ String.Pos.Raw.get path 0 ≠ '/' ∧
      String.Pos.Raw.atEnd path (String.Pos.Raw.next path 0) = true ∧
      String.Pos.Raw.extract path 0 (String.Pos.Raw.next path 0) = path)
    (name : path ≠ "" ∧ path ≠ "." ∧ path ≠ ".." ∧ path.utf8ByteSize ≤ longestName)
    (sound : path.contains '\x00' = false) (relative : path.startsWith "/" = false) :
    Plain path := by
  obtain ⟨some, other, last, whole⟩ := single
  obtain ⟨named, dot, dots, short⟩ := name
  have length : longestName ≤ longestPath := by decide
  refine ⟨?_, ?_, names_of_single some other last whole, ?_, short⟩
  · unfold checkPath
    rw [if_neg (by rw [sound]; decide), if_neg named, if_neg (by omega)]
  · unfold origin
    rw [if_neg (by rw [relative]; decide)]
  · unfold enter
    rw [if_neg (not_or.2 ⟨named, dot⟩), if_neg dots]
    rfl

/-! ## Reading -/

theorem read_eq_ok_iff : fs.read path = .ok c ↔
    ∃ place, fs.resolve path = .ok place ∧ fs.lookup place = some (.file c) := by
  unfold read
  cases fs.resolve path with
  | error e => exact iff_of_false (fun h => nomatch h) fun ⟨_, h, _⟩ => nomatch h
  | ok place =>
    simp only [bind, Except.bind, Except.ok.injEq, exists_eq_left']
    cases fs.lookup place with
    | none => simp
    | some e => cases e <;> simp

/-- An empty last name stands behind a directory. -/
theorem follow_concat_nil {p : Place} {names : List String}
    (h : fs.follow p (names ++ [""]) = .ok q) : fs.lookup q = some .directory := by
  induction names generalizing p with
  | nil =>
    obtain ⟨directory, -, e⟩ := follow_cons_eq_ok_iff.1 h
    cases e
    exact directory
  | cons name rest ih => exact ih (follow_cons_eq_ok_iff.1 h).2.2

/-- A file that can be read has no slashes behind its name. -/
theorem not_slashed_of_read (h : fs.read path = .ok c) : ¬ Slashed path := by
  rintro ⟨name, -, more, -⟩
  obtain ⟨place, resolved, file⟩ := read_eq_ok_iff.1 h
  have followed := (resolve_eq_ok_iff.1 resolved).2
  rcases List.eq_nil_or_concat (names path) with none | ⟨rest, last, e⟩
  · exact more (by unfold bareNames; rw [none]; rfl)
  · rw [List.concat_eq_append] at e
    by_cases empty : last = ""
    · rw [e, empty] at followed
      rw [follow_concat_nil followed] at file
      cases file
    · exact more (by unfold bareNames; simp [e, empty])

/-! ## Writing -/

theorem write_eq_ok_iff : fs.write path c = .ok fs' ↔ ∃ place, fs.resolveFile path = .ok place ∧
    fs.lookup place ≠ some .directory ∧ fs' = fs.insert place (.file c) := by
  unfold write
  cases fs.resolveFile path with
  | error e => exact iff_of_false (fun h => nomatch h) fun ⟨_, h, _⟩ => nomatch h
  | ok place =>
    simp only [bind, Except.bind, Except.ok.injEq, exists_eq_left']
    cases fs.lookup place with
    | none => simp [eq_comm]
    | some e => cases e <;> simp [eq_comm]

theorem isOuter_of_lookup (h : fs.lookup place ≠ some .directory) : isOuter place = false := by
  cases outer : isOuter place with
  | false => rfl
  | true => exact absurd (if_pos outer) h

/-- Writing a file changes no directory. -/
theorem agree_insert (h : fs.lookup place ≠ some .directory) :
    fs.Agree (fs.insert place (.file c)) := by
  intro p
  rw [lookup_insert _ _ _ _ (isOuter_of_lookup h)]
  split
  · next e =>
    subst e
    exact iff_of_false nofun h
  · rfl

/-- What was written is read back. -/
theorem read_of_write (h : fs.write path c = .ok fs') : fs'.read path = .ok c := by
  obtain ⟨place, resolved, free, rfl⟩ := write_eq_ok_iff.1 h
  have found := (agree_insert (c := c) free).resolve.2 (resolveFile_eq_ok_iff.1 resolved).2
  refine read_eq_ok_iff.2 ⟨place, found, ?_⟩
  rw [lookup_insert _ _ _ _ (isOuter_of_lookup free), if_pos rfl]

/-- The path is that of a file in a directory that is there, or of one that could be there. -/
def Writable (fs : Files) (path : String) : Prop :=
  ∃ place, fs.resolveFile path = .ok place ∧ fs.lookup place ≠ some .directory

theorem writable_iff : fs.Writable path ↔ ∃ fs', fs.write path c = .ok fs' := by
  simp only [write_eq_ok_iff]
  exact ⟨fun ⟨place, resolved, free⟩ => ⟨_, place, resolved, free, rfl⟩,
    fun ⟨_, place, resolved, free, _⟩ => ⟨place, resolved, free⟩⟩

theorem Writable.write_ne (h : fs.Writable path) (cause : PathError) :
    fs.write path c ≠ .error cause := by
  obtain ⟨_, written⟩ := writable_iff.1 h
  rw [written]
  exact nofun

theorem writable_of_read (h : fs.read path = .ok c) : fs.Writable path := by
  obtain ⟨place, resolved, file⟩ := read_eq_ok_iff.1 h
  refine ⟨place, resolveFile_eq_ok_iff.2 ⟨not_slashed_of_read h, resolved⟩, ?_⟩
  rw [file]
  exact nofun

theorem Agree.writable (h : fs.Agree fs') : fs'.Writable path ↔ fs.Writable path :=
  exists_congr fun place => and_congr h.resolveFile (not_congr (h place))

/-- The paths lead to different places, as far as `path` can be written. -/
def Apart (fs : Files) (path other : String) : Prop :=
  ∀ place, fs.resolveFile path = .ok place → fs.resolve other ≠ .ok place

/-- A name in the working directory has no slashes behind it. -/
theorem Plain.resolveFile (h : Plain path) (fs : Files) : fs.resolveFile path = .ok [path] := by
  refine resolveFile_eq_ok_iff.2 ⟨?_, h.resolve fs⟩
  rintro ⟨name, -, more, -⟩
  refine more ?_
  have named : path ≠ "" := by
    rintro rfl
    have check := h.check
    unfold checkPath at check
    split at check
    · cases check
    · cases check
  unfold bareNames
  rw [h.names]
  simp [named]

/-- Two names in the working directory are those of different files. -/
theorem Plain.apart (h : Plain path) (h' : Plain other) (ne : path ≠ other) (fs : Files) :
    fs.Apart path other := by
  intro place resolved found
  cases (resolveFile_eq_ok_iff.1 resolved).2.symm.trans (h.resolve fs)
  cases found.symm.trans (h'.resolve fs)
  exact ne rfl

theorem Agree.apart (h : fs.Agree fs') : fs'.Apart path other ↔ fs.Apart path other :=
  forall_congr' fun _ => imp_congr h.resolveFile (not_congr h.resolve)

/-- Other files are as before. -/
theorem read_of_write_apart (h : fs.write path c = .ok fs') (apart : fs.Apart path other)
    (e : fs.read other = .ok c') : fs'.read other = .ok c' := by
  obtain ⟨place, resolved, free, rfl⟩ := write_eq_ok_iff.1 h
  obtain ⟨place', found, file⟩ := read_eq_ok_iff.1 e
  refine read_eq_ok_iff.2 ⟨place', (agree_insert free).resolve.2 found, ?_⟩
  rw [lookup_insert _ _ _ _ (isOuter_of_lookup free), if_neg, file]
  rintro rfl
  exact apart place' resolved found

/-- The directories are the same, and so are the files apart from the one under `path`. -/
structure Spares (path : String) (fs fs' : Files) : Prop where
  agree : fs.Agree fs'
  read : ∀ other c, fs.Apart path other → fs.read other = .ok c → fs'.read other = .ok c

theorem spares_of_write (h : fs.write path c = .ok fs') : fs.Spares path fs' := by
  refine ⟨?_, fun other c' apart e => read_of_write_apart h apart e⟩
  obtain ⟨place, -, free, rfl⟩ := write_eq_ok_iff.1 h
  exact agree_insert free

theorem Spares.trans (h : fs.Spares path fs') (h' : fs'.Spares path fs'') : fs.Spares path fs'' :=
  ⟨h.agree.trans h'.agree, fun other c apart e =>
    h'.read other c (h.agree.apart.2 apart) (h.read other c apart e)⟩

/-- The length and the bytes of a file, or why they cannot be read. -/
def bytesAt (fs : Files) (path : String) : Except PathError (Nat × Bytes) :=
  (fs.read path).map fun c => (c.length, c.toBytes)

theorem bytesAt_of_alike (e : fs.read path = .ok c) (e' : fs'.read path = .ok c') (h : c.Alike c') :
    fs'.bytesAt path = fs.bytesAt path := by
  unfold bytesAt
  rw [e, e']
  show Except.ok (c'.length, c'.toBytes) = .ok (c.length, c.toBytes)
  rw [h.length, h.toBytes]

/-- The directories are the same, and every file that can be read has the same bytes. -/
structure Keeps (fs fs' : Files) : Prop where
  agree : fs.Agree fs'
  read : ∀ path c, fs.read path = .ok c → ∃ c', c.Alike c' ∧ fs'.read path = .ok c'

theorem Keeps.refl (fs : Files) : fs.Keeps fs := ⟨.refl fs, fun _ c e => ⟨c, .refl c, e⟩⟩

theorem Keeps.trans (h : fs.Keeps fs') (h' : fs'.Keeps fs'') : fs.Keeps fs'' := by
  refine ⟨h.agree.trans h'.agree, fun path c e => ?_⟩
  obtain ⟨c', alike, e'⟩ := h.read path c e
  obtain ⟨c'', alike', e''⟩ := h'.read path c' e'
  exact ⟨c'', alike.trans alike', e''⟩

/-- A file that is replaced by one with the same bytes, under whatever path, is as before. -/
theorem keeps_of_write (h : fs.write path c' = .ok fs') (e : fs.read path = .ok c)
    (alike : c.Alike c') : fs.Keeps fs' := by
  obtain ⟨place, resolved, free, rfl⟩ := write_eq_ok_iff.1 h
  refine ⟨agree_insert free, fun other d e' => ?_⟩
  by_cases same : fs.resolve other = .ok place
  · have found := (agree_insert (c := c') free).resolve.2 same
    obtain ⟨place₁, found₁, file₁⟩ := read_eq_ok_iff.1 e
    obtain ⟨place₂, found₂, file₂⟩ := read_eq_ok_iff.1 e'
    cases found₁.symm.trans (resolveFile_eq_ok_iff.1 resolved).2
    cases found₂.symm.trans same
    cases file₁.symm.trans file₂
    refine ⟨c', alike, read_eq_ok_iff.2 ⟨_, found, ?_⟩⟩
    rw [lookup_insert _ _ _ _ (isOuter_of_lookup free), if_pos rfl]
  · refine ⟨d, .refl d, read_of_write_apart h (fun place' resolved' found => ?_) e'⟩
    cases resolved.symm.trans resolved'
    exact same found

end Files

end SectorVolume
