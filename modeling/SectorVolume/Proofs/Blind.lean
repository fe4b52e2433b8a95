import SectorVolume.Proofs.Ends

/-!
# What an action cannot tell apart

Two runs of an action are compared that start in states which differ only in what the action is not
supposed to notice. `Couples` says that two actions then end alike, and `Blind` that an action does
so with itself. A comparison may count something that spoils it, such as failed transfers: what
happens to two runs after the count went up in one of them is left open.

A comparison under which no two states are alike is about single runs, and says that they keep an
invariant.
-/

namespace SectorVolume

/-- What two runs of an action are compared by. -/
structure Comparison (σ : Type) where
  /-- The states that are compared. -/
  fit : σ → Prop
  /-- The states differ only in what is not to be noticed. -/
  alike : σ → σ → Prop
  /-- How often the comparison was spoilt. -/
  count : σ → Nat

namespace Action

variable {ε σ τ α : Type}

/-- The state in which a run ended. -/
def final : EStateM.Result ε σ α → σ
  | .ok _ s => s
  | .error _ s => s

/-- Two runs ended in the same way, with results that are the `same` and in states that are
alike. -/
inductive Agree (alike : σ → σ → Prop) (same : α → α → Prop) :
    EStateM.Result ε σ α → EStateM.Result ε σ α → Prop where
  | ok {a b : α} {s t : σ} : same a b → alike s t → Agree alike same (.ok a s) (.ok b t)
  | error {e : ε} {s t : σ} : alike s t → Agree alike same (.error e s) (.error e t)

end Action

open SectorVolume.Action

variable {ε σ τ α β : Type} {c : Comparison σ} {same : α → α → Prop} {same' : β → β → Prop}

/-- An action leaves fit states fit, and forgets nothing that spoilt the comparison. -/
def Keeps (c : Comparison σ) (x : EStateM ε σ α) : Prop :=
  ∀ n, Preserves (fun s => c.fit s ∧ n ≤ c.count s) x

theorem Keeps.final {x : EStateM ε σ α} (h : Keeps c x) {s : σ} (fit : c.fit s) :
    c.fit (final (x s)) ∧ c.count s ≤ c.count (final (x s)) := by
  have run := h (c.count s) s ⟨fit, Nat.le_refl _⟩
  unfold Ends at run
  cases e : x s with
  | ok | error =>
    rw [e] at run
    exact run

/-- Started in states that are alike, the actions end alike, unless something spoils that. -/
structure Couples (c : Comparison σ) (same : α → α → Prop) (x y : EStateM ε σ α) : Prop where
  left : Keeps c x
  right : Keeps c y
  agree : ∀ s t, c.fit s → c.fit t → c.alike s t →
    c.count (final (x s)) = c.count s → c.count (final (y t)) = c.count t →
    Agree c.alike same (x s) (y t)

/-- The action cannot tell alike states apart. -/
def Blind (c : Comparison σ) (x : EStateM ε σ α) : Prop := Couples c (· = ·) x x

section Couples

variable {x y : EStateM ε σ α}

/-- The results may also be compared in a coarser way. -/
theorem Couples.mono {coarse : α → α → Prop} (h : Couples c same x y)
    (weaker : ∀ a b, same a b → coarse a b) : Couples c coarse x y := by
  refine ⟨h.left, h.right, fun s t fit fit' alike calm calm' => ?_⟩
  have agree := h.agree s t fit fit' alike calm calm'
  generalize x s = r at agree
  generalize y t = r' at agree
  cases agree with
  | ok e alike => exact .ok (weaker _ _ e) alike
  | error alike => exact .error alike

/-- Actions that agree go on with results that are the same. -/
theorem Couples.bind_of {k l : α → EStateM ε σ β} (h : Couples c same x y)
    (left : ∀ a, Keeps c (k a)) (right : ∀ b, Keeps c (l b))
    (hk : ∀ a b, same a b → Couples c same' (k a) (l b)) :
    Couples c same' (x >>= k) (y >>= l) := by
  refine ⟨fun n => (h.left n).bind fun a => left a n, fun n => (h.right n).bind fun b => right b n,
    fun s t fit fit' alike => ?_⟩
  have agree := h.agree s t fit fit' alike
  have started := h.left.final fit
  have started' := h.right.final fit'
  show c.count (final (EStateM.bind x k s)) = _ → c.count (final (EStateM.bind y l t)) = _ →
    Agree _ _ (EStateM.bind x k s) (EStateM.bind y l t)
  unfold EStateM.bind
  -- whichever action goes on cannot have been spoilt before, since the count does not fall
  cases ex : x s with
  | ok a s₁ =>
    rw [ex] at agree started
    have later := (left a).final started.1
    cases ey : y t with
    | ok b t₁ =>
      rw [ey] at agree started'
      have later' := (right b).final started'.1
      intro calm calm'
      have here : c.count s₁ = c.count s :=
        Nat.le_antisymm (Nat.le_trans later.2 (Nat.le_of_eq calm)) started.2
      have here' : c.count t₁ = c.count t :=
        Nat.le_antisymm (Nat.le_trans later'.2 (Nat.le_of_eq calm')) started'.2
      cases agree here here' with
      | ok e alike =>
        exact (hk a b e).agree s₁ t₁ started.1 started'.1 alike (calm.trans here.symm)
          (calm'.trans here'.symm)
    | error e t₁ =>
      rw [ey] at agree
      intro calm calm'
      have here : c.count s₁ = c.count s :=
        Nat.le_antisymm (Nat.le_trans later.2 (Nat.le_of_eq calm)) started.2
      cases agree here calm'
  | error e s₁ =>
    rw [ex] at agree
    cases ey : y t with
    | ok b t₁ =>
      rw [ey] at agree started'
      have later' := (right b).final started'.1
      intro calm calm'
      have here' : c.count t₁ = c.count t :=
        Nat.le_antisymm (Nat.le_trans later'.2 (Nat.le_of_eq calm')) started'.2
      cases agree calm here'
    | error e' t₁ =>
      rw [ey] at agree
      intro calm calm'
      cases agree calm calm' with
      | error alike => exact .error alike

theorem Couples.bind {k l : α → EStateM ε σ β} (h : Couples c (· = ·) x y)
    (hk : ∀ a, Couples c same' (k a) (l a)) : Couples c same' (x >>= k) (y >>= l) :=
  h.bind_of (fun a => (hk a).left) (fun b => (hk b).right) fun a _ e => e ▸ hk a

/-- The results need not be the same if they do not matter for what follows. -/
theorem Couples.bind_any {k l : α → EStateM ε σ β} (h : Couples c (fun _ _ => True) x y)
    (hk : ∀ a b, Couples c same' (k a) (l b)) : Couples c same' (x >>= k) (y >>= l) :=
  h.bind_of (fun a => (hk a a).left) (fun b => (hk b b).right) fun a b _ => hk a b

end Couples

section Blind

variable {x : EStateM ε σ α}

theorem Blind.bind {k : α → EStateM ε σ β} (h : Blind c x) (hk : ∀ a, Blind c (k a)) :
    Blind c (x >>= k) := Couples.bind h hk

theorem couples_pure {a b : α} (h : same a b) :
    Couples c same (pure a : EStateM ε σ α) (pure b) :=
  ⟨fun _ => preserves_pure a, fun _ => preserves_pure b, fun _ _ _ _ alike _ _ => .ok h alike⟩

theorem blind_pure (a : α) : Blind c (pure a : EStateM ε σ α) := couples_pure rfl

theorem blind_throw (e : ε) : Blind c (throw e : EStateM ε σ α) :=
  ⟨fun _ _ h => ends_throw h, fun _ _ h => ends_throw h, fun _ _ _ _ alike _ _ => .error alike⟩

theorem blind_fail (f : Fault) : Blind c (fail f : Action σ α) := blind_throw _

theorem blind_violate (v : Violation) : Blind c (violate v : Action σ α) := blind_throw _

theorem blind_ofExcept (r : Except Violation α) : Blind c (ofExcept r : Action σ α) := by
  cases r with
  | ok a => exact blind_pure a
  | error v => exact blind_violate v

theorem blind_resume (r : Except Fault α) : Blind c (resume r : Action σ α) := by
  cases r with
  | ok a => exact blind_pure a
  | error f => exact blind_fail f

theorem blind_ite {p : Prop} [Decidable p] {y : EStateM ε σ α} (h : Blind c x) (h' : Blind c y) :
    Blind c (if p then x else y) := by
  split
  · exact h
  · exact h'

theorem blind_when {p : Prop} [Decidable p] {y : EStateM ε σ Unit} {k : Unit → EStateM ε σ α}
    (h : Blind c y) (hk : Blind c (k ())) : Blind c (if p then y >>= k else k ()) :=
  blind_ite (h.bind fun _ => hk) hk

/-- The state may be looked at if alike states lead to the same continuation. -/
theorem blind_get_bind {k : σ → EStateM ε σ α} (e : ∀ s t, c.alike s t → k s = k t)
    (h : ∀ s, Blind c (k s)) : Blind c (get >>= k) := by
  have keeps : Keeps c (get >>= k : EStateM ε σ α) := fun n =>
    preserves_get.bind fun s => (h s).left n
  refine ⟨keeps, keeps, fun s t fit fit' alike => ?_⟩
  show c.count (final (k s s)) = _ → c.count (final (k t t)) = _ → Agree _ _ (k s s) (k t t)
  rw [e s t alike]
  exact (h t).agree s t fit fit' alike

theorem blind_modify {g : σ → σ} (fit : ∀ s, c.fit s → c.fit (g s))
    (alike : ∀ s t, c.alike s t → c.alike (g s) (g t)) (count : ∀ s, c.count (g s) = c.count s) :
    Blind c (modify g : EStateM ε σ PUnit) := by
  have keeps : Keeps c (modify g : EStateM ε σ PUnit) := fun _ =>
    preserves_modify fun s h => ⟨fit s h.1, by rw [count]; exact h.2⟩
  exact ⟨keeps, keeps, fun s t _ _ h _ _ => .ok rfl (alike s t h)⟩

theorem final_attempt (x : Action σ α) (s : σ) : final (attempt x s) = final (x s) := by
  unfold Action.attempt
  cases x s with
  | ok => rfl
  | error e => cases e <;> rfl

theorem Blind.attempt {x : Action σ α} (h : Blind c x) : Blind c (attempt x) := by
  refine ⟨fun n => (h.left n).attempt, fun n => (h.left n).attempt,
    fun s t fit fit' alike => ?_⟩
  rw [final_attempt, final_attempt]
  intro calm calm'
  have agree := h.agree s t fit fit' alike calm calm'
  unfold Action.attempt
  generalize x s = r at agree
  generalize x t = r' at agree
  cases agree with
  | ok e alike => exact .ok (congrArg _ e) alike
  | @error e _ _ alike =>
    cases e with
    | fault => exact .ok rfl alike
    | violation | blocked => exact .error alike

theorem blind_forEach {g : Nat → Action σ Unit} (h : ∀ i, Blind c (g i)) (first count : Nat) :
    Blind c (forEach g first count) := by
  induction count generalizing first with
  | zero => exact blind_pure _
  | succ count ih => exact (h first).bind fun _ => ih _

end Blind

/-! ## Parts of a state -/

namespace Action

/-- Runs an action on a part of the state. -/
def within (part : σ → τ) (put : τ → σ → σ) (x : EStateM ε τ α) : EStateM ε σ α := fun s =>
  match x (part s) with
  | .ok a p => .ok a (put p s)
  | .error e p => .error e (put p s)

end Action

namespace Comparison

variable {part : σ → τ} {put : τ → σ → σ} {d : Comparison τ}

/-- Comparing the part of a state by `d` is what comparing the state by `c` takes. -/
structure Lens (d : Comparison τ) (c : Comparison σ) (part : σ → τ) (put : τ → σ → σ) :
    Prop where
  fit : ∀ s, c.fit s → d.fit (part s)
  fit_put : ∀ p s, c.fit s → d.fit p → c.fit (put p s)
  alike : ∀ s t, c.alike s t → d.alike (part s) (part t)
  alike_put : ∀ p q s t, c.alike s t → d.alike p q → c.alike (put p s) (put q t)
  count : ∀ s, d.count (part s) = c.count s
  count_put : ∀ p s, c.count (put p s) = d.count p

theorem Lens.keeps (h : Lens d c part put) {x : EStateM ε τ α} (hx : Keeps d x) :
    Keeps c (within part put x) := by
  rintro n s ⟨fit, le⟩
  have run := hx n (part s) ⟨h.fit s fit, by rw [h.count]; exact le⟩
  unfold Ends at run ⊢
  unfold within
  cases e : x (part s) with
  | ok _ p | error _ p =>
    rw [e] at run
    exact ⟨h.fit_put p s fit run.1, by rw [h.count_put]; exact run.2⟩

theorem Lens.count_within (h : Lens d c part put) (x : EStateM ε τ α) (s : σ) :
    c.count (final (within part put x s)) = d.count (final (x (part s))) := by
  unfold within
  cases x (part s) <;> exact h.count_put ..

theorem Lens.couples (h : Lens d c part put) {x y : EStateM ε τ α} (hx : Couples d same x y) :
    Couples c same (within part put x) (within part put y) := by
  refine ⟨h.keeps hx.left, h.keeps hx.right, fun s t fit fit' alike => ?_⟩
  rw [h.count_within, h.count_within, ← h.count, ← h.count]
  intro calm calm'
  have agree := hx.agree (part s) (part t) (h.fit s fit) (h.fit t fit') (h.alike s t alike) calm calm'
  unfold within
  generalize x (part s) = r at agree
  generalize y (part t) = r' at agree
  cases agree with
  | ok e alike' => exact .ok e (h.alike_put _ _ s t alike alike')
  | error alike' => exact .error (h.alike_put _ _ s t alike alike')

/-- Compares one part of the state, and asks the rest to be equal. -/
def onPart {ρ : Type} (d : Comparison τ) (part : σ → τ) (rest : σ → ρ) : Comparison σ where
  fit s := d.fit (part s)
  alike s t := d.alike (part s) (part t) ∧ rest s = rest t
  count s := d.count (part s)

theorem lens_onPart {ρ : Type} {rest : σ → ρ} (hp : ∀ p s, part (put p s) = p)
    (hr : ∀ p s, rest (put p s) = rest s) : Lens d (d.onPart part rest) part put where
  fit _ h := h
  fit_put p s _ h := by
    show d.fit (part (put p s))
    rwa [hp]
  alike _ _ h := h.1
  alike_put p q s t h h' := by
    refine ⟨?_, ?_⟩
    · rwa [hp, hp]
    · rw [hr, hr]
      exact h.2
  count _ := rfl
  count_put p s := congrArg d.count (hp p s)

/-- Compares no two runs, and says of single ones that they keep an invariant. -/
def single (I : σ → Prop) : Comparison σ where
  fit := I
  alike _ _ := False
  count _ := 0

end Comparison

theorem Keeps.preserves {x : EStateM ε σ α} (h : Keeps c x) : Preserves c.fit x := fun s fit =>
  (h 0 s ⟨fit, Nat.zero_le _⟩).mono (fun _ _ h => h.1) fun _ _ h => h.1

theorem keeps_single {I : σ → Prop} {x : EStateM ε σ α} (h : Preserves I x) : Keeps (.single I) x :=
  fun _ s hs => (h s hs.1).mono (fun _ _ h => ⟨h, hs.2⟩) fun _ _ h => ⟨h, hs.2⟩

theorem couples_single {I : σ → Prop} {x y : EStateM ε σ α} (h : Preserves I x)
    (h' : Preserves I y) : Couples (.single I) same x y :=
  ⟨keeps_single h, keeps_single h', fun _ _ _ _ no => no.elim⟩

theorem blind_single {I : σ → Prop} {x : EStateM ε σ α} (h : Preserves I x) :
    Blind (.single I) x := couples_single h h

end SectorVolume
