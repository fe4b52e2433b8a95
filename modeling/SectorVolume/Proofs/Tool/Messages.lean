import SectorVolume.Tool.Run

/-!
# What messages tell

The tool names an inode by its sector, in decimal digits. From the line that `put` prints the sector
can be read off, and also from the report of a volume that was full, which no other report of `put`
looks like. The digits name the same inode when they are given to another command.
-/

namespace SectorVolume

namespace Tool

variable {s s' : SectorId} {written size written' size' : Nat}

theorem toList_toString (s : SectorId) : (toString s).toList = Nat.toDigits 10 s.toNat :=
  Nat.toList_repr

theorem toString_inj (h : toString s = toString s') : s = s' := by
  replace h := congrArg String.toList h
  rw [toList_toString, toList_toString] at h
  have same := congrArg (Nat.ofDigitChars 10 · 0) h
  simp only [Nat.ofDigitChars_toDigits (by decide : 1 < 10) (by decide)] at same
  exact UInt32.toNat_inj.1 same

theorem blank_not_mem_toString (s : SectorId) : ' ' ∉ (toString s).toList := by
  rw [toList_toString]
  intro mem
  exact absurd (Nat.isDigit_of_mem_toDigits (by decide) (by decide) mem) (by decide)

/-- What stands behind the last blank is the same in equal texts. -/
theorem suffix_inj {a a' b b' : List Char} (e : a ++ ' ' :: b = a' ++ ' ' :: b') (hb : ' ' ∉ b)
    (hb' : ' ' ∉ b') : b = b' := by
  rcases List.append_eq_append_iff.1 e with ⟨r, -, e⟩ | ⟨r, -, e⟩
  · cases r with
    | nil => exact (List.cons.inj e).2
    | cons _ r =>
      rw [(List.cons.inj e).2] at hb
      exact absurd (List.mem_append_right r List.mem_cons_self) hb
  · cases r with
    | nil => exact (List.cons.inj e).2.symm
    | cons _ r =>
      rw [(List.cons.inj e).2] at hb'
      exact absurd (List.mem_append_right r List.mem_cons_self) hb'

theorem reportText_singleton_inj {a b : String} (h : reportText [a] = reportText [b]) : a = b :=
  (String.append_right_inj _).1 ((String.append_left_inj _).1 h)

/-- The report of an inode that was cut short. -/
def cutText (written size : Nat) (s : SectorId) : String :=
  reportText [s!"volume full: wrote {written} of {size} byte(s) to inode {s}"]

theorem cutText_inj (h : cutText written size s = cutText written' size' s') : s = s' := by
  replace h := congrArg String.toList (reportText_singleton_inj h)
  have blank : (toString " byte(s) to inode ").toList = " byte(s) to inode".toList ++ [' '] := by
    decide
  simp only [String.toList_append, blank] at h
  rw [← List.append_assoc, ← List.append_assoc, List.append_assoc _ [' '],
    List.append_assoc _ [' ']] at h
  have same := suffix_inj h (blank_not_mem_toString s) (blank_not_mem_toString s')
  exact toString_inj (String.toList_inj.1 same)

/-- The first character of what was reported. -/
theorem first_of_cutText (written size : Nat) (s : SectorId) :
    (cutText written size s).toList[7]? = some 'v' := by
  have plain : ∀ t : String, toString t = t := fun _ => rfl
  simp [cutText, reportText, plain]

theorem cutText_ne_empty : cutText written size s ≠ "" := by
  intro h
  have first := first_of_cutText written size s
  rw [h] at first
  cases first

theorem cutText_ne_unread (file cause : String) :
    cutText written size s ≠ reportText ["cannot read " ++ file, cause] := by
  intro h
  have first := first_of_cutText written size s
  rw [h] at first
  simp [reportText] at first

theorem cutText_ne_exhausted : cutText written size s ≠ reportText [(Fault.exhausted 1).message] := by
  intro h
  have first := first_of_cutText written size s
  have text : (Fault.exhausted 1).message =
      "free-space allocator cannot supply " ++ toString 1 ++ " sector(s)" := rfl
  rw [h, text] at first
  simp [reportText] at first

/-! ## Naming an inode -/

/-- Printed digits are read as the number that they are of. -/
theorem digits?_toDigits (n : Nat) : digits? (Nat.toDigits 10 n) = some n := by
  have digits : (Nat.toDigits 10 n).all Char.isDigit = true :=
    List.all_eq_true.2 fun _ => Nat.isDigit_of_mem_toDigits (by decide) (by decide)
  have some : (Nat.toDigits 10 n).isEmpty = false := List.isEmpty_eq_false_iff.2 Nat.toDigits_ne_nil
  unfold digits?
  rw [if_pos (by rw [digits, some]; rfl)]
  exact congrArg Option.some Nat.ofDigitChars_ten_toDigits

/-- A printed sector has no sign. -/
theorem exists_toList_toString (s : SectorId) :
    ∃ d ds, (toString s).toList = d :: ds ∧ d ≠ '+' ∧ d ≠ '-' := by
  rw [toList_toString]
  cases e : Nat.toDigits 10 s.toNat with
  | nil => exact absurd e Nat.toDigits_ne_nil
  | cons d ds =>
    have digit : d.isDigit = true :=
      Nat.isDigit_of_mem_toDigits (by decide) (by decide) (e ▸ List.mem_cons_self)
    refine ⟨d, ds, rfl, ?_, ?_⟩
    · rintro rfl
      exact absurd digit (by decide)
    · rintro rfl
      exact absurd digit (by decide)

theorem word32?_toString (s : SectorId) : word32? (toString s) = some s := by
  obtain ⟨d, ds, e, plus, minus⟩ := exists_toList_toString s
  have small : s.toNat < wordRange32 := s.toNat_lt
  unfold word32?
  split
  · next e' => exact absurd (List.cons.inj (e.symm.trans e')).1 plus
  · next e' => exact absurd (List.cons.inj (e.symm.trans e')).1 minus
  · rw [toList_toString, digits?_toDigits]
    simp only [Option.filter, small, decide_true, if_true, Option.map_some, UInt32.ofNat_toNat]

theorem isValue_toString (s : SectorId) : isValue (toString s) = true := by
  obtain ⟨d, ds, e, -, minus⟩ := exists_toList_toString s
  unfold isValue
  split
  · next e' => exact absurd (List.cons.inj (e.symm.trans e')).1 minus
  · rfl

variable {specs : List OptionSpec} {spec : OptionSpec} {values : OptionValues} {arg value : String}
  {rest : List String}

/-- An option that is given for the first time, with its value behind it. -/
theorem scan_value (known : token specs arg = .option spec none) (given : isValue value = true)
    (first : values.lookup spec.long = none) (accepted : spec.accepts value = true) :
    scan specs values (arg :: value :: rest) = scan specs ((spec.long, value) :: values) rest := by
  have added : values.add spec value = some ((spec.long, value) :: values) := by
    unfold OptionValues.add
    rw [if_pos (by rw [first, accepted]; rfl)]
  rw [scan, known]
  simp only
  rw [if_pos given, added]

theorem accepts_toString (s : SectorId) : inodeOption.accepts (toString s) = true := by
  show (word32? (toString s)).isSome = true
  rw [word32?_toString]
  rfl

variable {image out name : String} {command : Command}

/-- The image is named, and then a command with its options. -/
theorem readArguments_image (given : isValue image = true) (named : image ≠ "")
    (word : token [imageOption, cacheOption] name = .word name) (other : name ≠ "help")
    (options : commandOptions name = some specs) (all : scan specs [] rest = .finished values)
    (made : makeCommand name values = some command) :
    readArguments ("-i" :: image :: name :: rest) = .run ⟨image, defaultCapacity, command⟩ := by
  have known : token [imageOption, cacheOption] "-i" = .option imageOption none := rfl
  have front : scan [imageOption, cacheOption] [] ("-i" :: image :: name :: rest) =
      .stopped [("image", image)] name rest := by
    rw [scan_value known given rfl (decide_eq_true named), scan, word]
    rfl
  unfold readArguments
  rw [front]
  simp only
  rw [if_neg other, options]
  simp only
  rw [all]
  simp only
  rw [made]
  rfl

/-- The sector that `put` printed can be given to `get`. -/
theorem readArguments_get (given : isValue image = true) (named : image ≠ "")
    (given' : isValue out = true) (named' : out ≠ "") (s : SectorId) :
    readArguments ["-i", image, "get", "--inode", toString s, "-o", out] =
      .run ⟨image, defaultCapacity, .get s out⟩ := by
  have inode : token [inodeOption, outOption] "--inode" = .option inodeOption none := rfl
  have output : token [inodeOption, outOption] "-o" = .option outOption none := rfl
  have all : scan [inodeOption, outOption] [] ["--inode", toString s, "-o", out] =
      .finished [("out", out), ("inode", toString s)] := by
    rw [scan_value inode (isValue_toString s) rfl (accepts_toString s),
      scan_value output given' rfl (decide_eq_true named')]
    rfl
  have made : makeCommand "get" [("out", out), ("inode", toString s)] = some (.get s out) := by
    show (do return Command.get (← word32? (toString s)) (← some out)) = _
    rw [word32?_toString]
    rfl
  exact readArguments_image given named rfl (by decide) rfl all made

/-- And to `rm`. -/
theorem readArguments_rm (given : isValue image = true) (named : image ≠ "") (s : SectorId) :
    readArguments ["-i", image, "rm", "--inode", toString s] =
      .run ⟨image, defaultCapacity, .rm s⟩ := by
  have inode : token [inodeOption] "--inode" = .option inodeOption none := rfl
  exact readArguments_image given named rfl (by decide) rfl
    (scan_value inode (isValue_toString s) rfl (accepts_toString s))
    (congrArg (Option.map Command.rm) (word32?_toString s))

end Tool

end SectorVolume
