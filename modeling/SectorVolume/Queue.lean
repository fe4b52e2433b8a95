/-!
# Queues

A sequence that loses items at its front and gains items at its back. It is kept as two lists, the
items at the back with the last one first, so that neither end has to be reached through the other.
`toList` is the sequence in order; each operation has a lemma that says what it does to it.
-/

namespace SectorVolume

/-- A sequence with a front and a back. -/
structure Queue (α : Type) where
  /-- The first items, in order. -/
  front : List α
  /-- The items after those, the last one first. -/
  back : List α

namespace Queue

variable {α : Type}

/-- The items in order. -/
def toList (q : Queue α) : List α := q.front ++ q.back.reverse

/-- The queue of the given items. -/
def ofList (items : List α) : Queue α := ⟨items, []⟩

instance : Inhabited (Queue α) := ⟨ofList []⟩

/-- The number of items. -/
def size (q : Queue α) : Nat := q.front.length + q.back.length

/-- Adds an item at the back. -/
def push (q : Queue α) (a : α) : Queue α :=
  match q with
  | ⟨front, back⟩ => ⟨front, a :: back⟩

/-- Adds items at the back, in order. -/
def pushAll (q : Queue α) (items : List α) : Queue α :=
  match q with
  | ⟨front, back⟩ => ⟨front, items.reverseAux back⟩

/-- Takes the first item. -/
def pop? (q : Queue α) : Option (α × Queue α) :=
  match q with
  | ⟨a :: front, back⟩ => some (a, ⟨front, back⟩)
  | ⟨[], back⟩ =>
    match back.reverse with
    | [] => none
    | a :: front => some (a, ⟨front, []⟩)

/-- Moves the first item, if there is one, to the back and tells which one it is. -/
@[inline] def rotate (q : Queue α) : Option α × Queue α :=
  match q with
  | ⟨a :: front, back⟩ => (some a, ⟨front, a :: back⟩)
  | ⟨[], back⟩ =>
    match back.reverse with
    | [] => (none, ⟨[], []⟩)
    | a :: front => (some a, ⟨front, [a]⟩)

/-- Takes `count` more items after those already taken, the latest of which comes first. -/
def takeAfter? (taken : List α) : Nat → Queue α → Option (List α × Queue α)
  | 0, q => some (taken.reverse, q)
  | count + 1, q =>
    match q.pop? with
    | none => none
    | some (a, q) => takeAfter? (a :: taken) count q

/-- Takes the first `count` items, if there are so many. -/
def take? (q : Queue α) (count : Nat) : Option (List α × Queue α) := takeAfter? [] count q

@[simp] theorem toList_ofList (items : List α) : (ofList items).toList = items := by
  simp [toList, ofList]

theorem size_eq (q : Queue α) : q.size = q.toList.length := by
  simp [size, toList]

@[simp] theorem toList_push (q : Queue α) (a : α) : (q.push a).toList = q.toList ++ [a] := by
  simp [toList, push]

@[simp] theorem toList_pushAll (q : Queue α) (items : List α) :
    (q.pushAll items).toList = q.toList ++ items := by
  simp [toList, pushAll, List.reverseAux_eq]

/-- There is a first item unless the queue is empty. -/
theorem pop?_eq_none_iff {q : Queue α} : q.pop? = none ↔ q.toList = [] := by
  obtain ⟨front, back⟩ := q
  cases front with
  | cons a front => simp [pop?, toList]
  | nil =>
    simp only [pop?, toList, List.nil_append]
    split <;> simp_all

/-- The item taken is the first one, and the others stay in order. -/
theorem toList_of_pop?_eq_some {q q' : Queue α} {a : α} (h : q.pop? = some (a, q')) :
    q.toList = a :: q'.toList := by
  obtain ⟨front, back⟩ := q
  cases front with
  | cons b front =>
    obtain ⟨rfl, rfl⟩ : b = a ∧ ⟨front, back⟩ = q' := by simpa [pop?] using h
    simp [toList]
  | nil =>
    simp only [pop?] at h
    split at h
    · cases h
    · next b front e =>
      obtain ⟨rfl, rfl⟩ : b = a ∧ ⟨front, []⟩ = q' := by simpa using h
      simp [toList, e]

theorem rotate_fst (q : Queue α) : q.rotate.1 = q.toList.head? := by
  obtain ⟨front, back⟩ := q
  cases front with
  | cons a front => rfl
  | nil =>
    simp only [rotate, toList, List.nil_append]
    split <;> simp_all

/-- The first item becomes the last one, and the others stay in order. -/
theorem toList_rotate_snd (q : Queue α) :
    q.rotate.2.toList = q.toList.tail ++ q.toList.head?.toList := by
  obtain ⟨front, back⟩ := q
  cases front with
  | cons a front => simp [rotate, toList]
  | nil =>
    simp only [rotate, toList, List.nil_append]
    split <;> simp_all

theorem takeAfter?_eq_none_iff {taken : List α} {count : Nat} {q : Queue α} :
    takeAfter? taken count q = none ↔ q.toList.length < count := by
  induction count generalizing taken q with
  | zero => simp [takeAfter?]
  | succ count ih =>
    unfold takeAfter?
    split
    · next e => simp [pop?_eq_none_iff.1 e]
    · next a q' e => simp [ih, toList_of_pop?_eq_some e]

theorem append_of_takeAfter?_eq_some {taken items : List α} {count : Nat} {q q' : Queue α}
    (h : takeAfter? taken count q = some (items, q')) :
    items.length = taken.length + count ∧ taken.reverse ++ q.toList = items ++ q'.toList := by
  induction count generalizing taken q with
  | zero =>
    obtain ⟨rfl, rfl⟩ : taken.reverse = items ∧ q = q' := by simpa [takeAfter?] using h
    simp
  | succ count ih =>
    unfold takeAfter? at h
    split at h
    · cases h
    · next a q'' e =>
      obtain ⟨length, sequence⟩ := ih h
      rw [toList_of_pop?_eq_some e]
      exact ⟨by rw [length, List.length_cons]; omega, by simpa using sequence⟩

/-- Items cannot be taken if there are too few. -/
theorem take?_eq_none_iff {q : Queue α} {count : Nat} :
    q.take? count = none ↔ q.toList.length < count := takeAfter?_eq_none_iff

/-- The items taken are the first ones, and the others stay in order. -/
theorem append_of_take?_eq_some {q q' : Queue α} {count : Nat} {items : List α}
    (h : q.take? count = some (items, q')) :
    items.length = count ∧ q.toList = items ++ q'.toList := by
  simpa using append_of_takeAfter?_eq_some h

end Queue

end SectorVolume
