import Mathlib.Tactic.Lemma

/-!
# A lock that is not recursive

A thread's computation that takes and releases one lock carries with it whether the thread holds
the lock.  A thread that tries to take the lock it holds waits for itself: the computation halts
with `deadlock`.

`Follows h x y` compares such a computation `x`, started with the lock held or free as `h` says,
with the computation `y` that does the same work without a lock: `x` does what `y` does, leaves
the lock as it found it, and so never waits for itself.  The rules follow the structure of a `do`
block; the one for `guarded` is where the lock changes hands.
-/

namespace Mutex

universe u

variable {η : Type u} {β γ : Type u}

/-- Why a computation with a lock ends early. -/
inductive Halt (η : Type u)
  /-- For a reason that has nothing to do with the lock. -/
  | stop (e : η)
  /-- It waits for the lock it holds. -/
  | deadlock

/-- A computation of a thread, which holds the lock or not. -/
abbrev Locking (η : Type u) (β : Type u) : Type u := Bool → Except (Halt η) (β × Bool)

namespace Locking

/-- A computation that does not use the lock. -/
def lift (y : Except η β) : Locking η β := fun held =>
  match y with
  | .ok b => .ok (b, held)
  | .error e => .error (.stop e)

/-- One computation after another. -/
def andThen (x : Locking η β) (f : β → Locking η γ) : Locking η γ := fun held =>
  match x held with
  | .ok (b, held) => f b held
  | .error e => .error e

instance : Monad (Locking η) where
  pure b := fun held => .ok (b, held)
  bind := andThen

/-- The lock is taken. -/
def acquire (b : β) : Locking η β := fun held =>
  if held then .error .deadlock else .ok (b, true)

/-- The lock is released. -/
def release (b : β) : Locking η β := fun _ => .ok (b, false)

/-- A critical section that starts in the state `s`. -/
def guarded (s : γ) (x : γ → Locking η β) : Locking η β := do
  let s ← acquire s
  let b ← x s
  release b

end Locking

open Locking

/-- Started with the lock held or free, `x` does what `y` does and leaves the lock as it was. -/
def Follows (held : Bool) (x : Locking η β) (y : Except η β) : Prop := x held = lift y held

namespace Follows

variable {held : Bool} {x : Locking η β} {y : Except η β}

lemma lift (y : Except η β) : Follows held (Locking.lift y) y := rfl

lemma pure (b : β) : Follows held (Pure.pure b : Locking η β) (.ok b) := rfl

/-- Chaining along `do`. -/
lemma bind {f : β → Locking η γ} {g : β → Except η γ} (hx : Follows held x y)
    (hf : ∀ b, y = .ok b → Follows held (f b) (g b)) : Follows held (x >>= f) (y >>= g) := by
  show andThen x f held = _
  unfold andThen
  rw [hx]
  cases y with
  | error e => rfl
  | ok b => exact hf b rfl

/-- A first half that only looks something up. -/
lemma of_lift {f : β → Locking η γ} {b : β} {z : Except η γ} (hy : y = .ok b)
    (hf : Follows held (f b) z) : Follows held (Locking.lift y >>= f) z := by
  subst hy
  exact hf

/-- A critical section entered with the lock free. -/
lemma guarded {s : γ} {x : γ → Locking η β} (hx : Follows true (x s) y) :
    Follows false (guarded s x) y := by
  have hrun : Locking.guarded s x false = andThen (x s) release true := rfl
  show Locking.guarded s x false = Locking.lift y false
  rw [hrun]
  unfold andThen
  rw [hx]
  cases y <;> rfl

end Follows

/-! ## One computation after another -/

/-- The lock after the computations `xs`, each started with the lock as the one before left it;
one that stops for a reason of its own is the last. -/
def session : List (Locking η β) → Locking η PUnit
  | [] => Pure.pure .unit
  | x :: xs => do
    let _ ← x
    session xs

/-- Computations that leave the lock as they find it can follow one another. -/
theorem session_no_deadlock {xs : List (Locking η β)} {held : Bool}
    (h : ∀ x ∈ xs, ∃ y, Follows held x y) : session xs held ≠ .error .deadlock := by
  induction xs with
  | nil =>
    intro hdead
    cases hdead
  | cons x xs ih =>
    obtain ⟨y, hy⟩ := h x List.mem_cons_self
    have hrest := ih fun x' hx' => h x' (List.mem_cons_of_mem x hx')
    show andThen x _ held ≠ _
    unfold andThen
    rw [hy]
    cases y with
    | error e =>
      intro hdead
      cases hdead
    | ok b => exact hrest

end Mutex
