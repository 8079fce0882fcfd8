import Adbd.Model.FdeventSpec

/-!
# The slots of `fd_table`

`fdevent_subproc_event_func` takes a descriptor number off the notification socket and looks it
up in `fd_table`, so every slot below `fd_table_max` has to hold the registered `fdevent` or a
null pointer.  `fdevent_register` doubles the table until the descriptor fits and clears what
`realloc` added, but it counts `sizeof(int)` bytes for a slot of pointer size and so clears the
first half only.

This file runs arbitrary sequences of `fdevent_register` and `fdevent_unregister`, each growth
step finding arbitrary memory, beside the record of what the calls have registered, and settles
exactly when the table and the record agree: `meaningful_iff`.
-/

namespace Adbd

open Transition

namespace FdTable

variable {κ : Type} [DecidableEq κ]

open Loop

/-! ## Call sequences -/

/-- The calls that write the table.  `fresh` is what the memory that `realloc` adds in the call
holds, should the table grow. -/
inductive Call (κ : Type)
  | register (k : κ) (fd : ℕ) (fresh : ℕ → Slot κ)
  | unregister (k : κ)

/-- The state of `fdevent.c` beside the record of what is registered. -/
structure Table (κ : Type) where
  loop : Loop κ
  registered : ℕ → Option κ

/-- The state in which `fdevent_register` is called. -/
def prepare (k : κ) (fd : ℕ) (fresh : ℕ → Slot κ) (L : Loop κ) : Loop κ :=
  { L.setMem k { L.mem k with fd := fd } with fill := fresh }

/-- One call. -/
def step : Call κ → Table κ → Except Stop (Table κ)
  | .register k fd fresh, T => do
    let L ← (prepare k fd fresh T.loop).fdeventRegister k
    pure { loop := L, registered := Function.update T.registered fd (some k) }
  | .unregister k, T => do
    let L ← T.loop.fdeventUnregister k
    pure { loop := L, registered := Function.update T.registered (T.loop.mem k).fd none }

/-- Before the first call: no table, nothing registered. -/
def initial (L : Loop κ) : Table κ where
  loop := { L with fdTableMax := 0 }
  registered _ := none

/-! ## Meaningful tables -/

/-- The slot that says who is registered. -/
def slotOf : Option κ → Slot κ
  | none => .null
  | some k => .fde k

/-- Every slot below `fd_table_max` says who is registered. -/
def Meaningful (T : Table κ) : Prop :=
  ∀ n < T.loop.fdTableMax, T.loop.fdTable n = slotOf (T.registered n)

/-- The table is meaningful after each call. -/
def StaysMeaningful (calls : List (Call κ)) (T : Table κ) : Prop :=
  Along step (fun c T => ∀ T', step c T = .ok T' → Meaningful T') calls T

/-- The size the table grows to for `fd`. -/
def grownTo (fd max : ℕ) : ℕ := growTable 8 (if max = 0 then 256 else max) fd

/-- If the call grows the table, then the part of the new memory that `memset` leaves alone
happens to be null, except for the slot the call itself writes. -/
def FindsNull : Call κ → Table κ → Prop
  | .register _ fd fresh, T =>
    let max := T.loop.fdTableMax
    max ≤ fd → fd ≤ 32000 →
      ∀ i, max + (grownTo fd max - max) / 2 ≤ i → i < grownTo fd max → i ≠ fd → fresh i = .null
  | .unregister _, _ => True

/-! ## Doubling -/

lemma growTable_lt {fuel max fd : ℕ} (h : fd < max * 2 ^ fuel) : fd < growTable fuel max fd := by
  induction fuel generalizing max with
  | zero => simpa [growTable] using h
  | succ fuel ih =>
    rw [growTable]
    split
    case isTrue =>
      apply ih
      calc fd < max * (2 ^ fuel * 2) := by rwa [Nat.pow_succ] at h
        _ = 2 * max * 2 ^ fuel := by
          rw [Nat.mul_comm (2 ^ fuel) 2, ← Nat.mul_assoc, Nat.mul_comm max 2]
    case isFalse hle => exact Nat.not_le.mp hle

lemma le_growTable (fuel max fd : ℕ) : max ≤ growTable fuel max fd := by
  induction fuel generalizing max with
  | zero => exact Nat.le_refl _
  | succ fuel ih =>
    rw [growTable]
    split
    · exact Nat.le_trans (by omega) (ih (2 * max))
    · exact Nat.le_refl _

/-- Eight doublings make room for any descriptor that is let in. -/
lemma lt_grownTo {fd max : ℕ} (hmax : max = 0 ∨ 256 ≤ max) (hfd : fd ≤ 32000) :
    fd < grownTo fd max := by
  apply growTable_lt
  split <;> omega

lemma le_grownTo (fd max : ℕ) : max ≤ grownTo fd max := by
  refine Nat.le_trans ?_ (le_growTable 8 _ fd)
  split <;> omega

lemma grownTo_ge (fd max : ℕ) (hmax : max = 0 ∨ 256 ≤ max) : 256 ≤ grownTo fd max := by
  refine Nat.le_trans ?_ (le_growTable 8 _ fd)
  split <;> omega

/-! ## One call -/

/-- What every call sequence maintains. -/
structure Inv (T : Table κ) : Prop where
  meaningful : Meaningful T
  size : T.loop.fdTableMax = 0 ∨ 256 ≤ T.loop.fdTableMax
  /-- Nothing is registered outside of the table. -/
  below : ∀ n k, T.registered n = some k → n < T.loop.fdTableMax

omit [DecidableEq κ] in
lemma inv_initial (L : Loop κ) : Inv (initial L) :=
  ⟨fun n hn => absurd hn (Nat.not_lt_zero n), .inl rfl, nofun⟩

lemma prepare_fd (k : κ) (fd : ℕ) (fresh : ℕ → Slot κ) (L : Loop κ) :
    ((prepare k fd fresh L).mem k).fd = fd := by
  simp [prepare, setMem]

/-- A registration within the table. -/
lemma register_within {k : κ} {fd : ℕ} {fresh : ℕ → Slot κ} {T : Table κ}
    (h : fd < T.loop.fdTableMax) :
    step (.register k fd fresh) T = .ok
      { loop := { prepare k fd fresh T.loop with
          fdTable := Function.update T.loop.fdTable fd (.fde k) },
        registered := Function.update T.registered fd (some k) } := by
  have hmax : ¬(prepare k fd fresh T.loop).fdTableMax ≤ fd := Nat.not_le.mpr h
  rw [step, fdeventRegister, prepare_fd, if_neg hmax]
  rfl

/-- A registration that grows the table. -/
lemma register_growing {k : κ} {fd : ℕ} {fresh : ℕ → Slot κ} {T : Table κ}
    (h : T.loop.fdTableMax ≤ fd) (hfd : fd ≤ 32000) :
    step (.register k fd fresh) T = .ok
      { loop := { prepare k fd fresh T.loop with
          fdTableMax := grownTo fd T.loop.fdTableMax,
          fdTable := Function.update (fun i =>
            if i < T.loop.fdTableMax then T.loop.fdTable i
            else if i < T.loop.fdTableMax +
                (grownTo fd T.loop.fdTableMax - T.loop.fdTableMax) / 2 then .null
            else fresh i) fd (.fde k) },
        registered := Function.update T.registered fd (some k) } := by
  have hmax : (prepare k fd fresh T.loop).fdTableMax ≤ fd := h
  rw [step, fdeventRegister, prepare_fd, if_pos hmax, if_neg (Nat.not_lt.mpr hfd)]
  rfl

lemma register_huge {k : κ} {fd : ℕ} {fresh : ℕ → Slot κ} {T : Table κ}
    (h : T.loop.fdTableMax ≤ fd) (hfd : 32000 < fd) :
    step (.register k fd fresh) T = .error (.fatalFd fd) := by
  have hmax : (prepare k fd fresh T.loop).fdTableMax ≤ fd := h
  rw [step, fdeventRegister, prepare_fd, if_pos hmax, if_pos hfd]
  rfl

/-- A successful `fdevent_unregister` found its `fdevent` in the table and nulled the slot. -/
lemma unregister_ok {k : κ} {T T' : Table κ} (h : step (.unregister k) T = .ok T') :
    T'.loop.fdTableMax = T.loop.fdTableMax ∧
      T'.loop.fdTable = Function.update T.loop.fdTable (T.loop.mem k).fd .null ∧
      T'.registered = Function.update T.registered (T.loop.mem k).fd none := by
  rw [step, bind_eq_ok_iff] at h
  obtain ⟨L, hL, hT⟩ := h
  cases hT
  rw [fdeventUnregister] at hL
  dsimp only at hL
  split at hL
  case isTrue => cases hL
  split at hL
  case isTrue => cases hL
  cases hL
  refine ⟨?_, ?_, rfl⟩
  · dsimp only
    split <;> rfl
  · dsimp only
    split <;> rfl

omit [DecidableEq κ] in
/-- Writing one slot and its record alike. -/
lemma agree_update {t : ℕ → Slot κ} {r : ℕ → Option κ} {n fd : ℕ} (x : Option κ)
    (h : n ≠ fd → t n = slotOf (r n)) :
    Function.update t fd (slotOf x) n = slotOf (Function.update r fd x n) := by
  by_cases hn : n = fd
  · rw [hn, Function.update_self, Function.update_self]
  · rw [Function.update_of_ne hn, Function.update_of_ne hn, h hn]

/-- After a call the table is meaningful exactly if the call found null memory. -/
theorem meaningful_step_iff {c : Call κ} {T : Table κ} (hT : Inv T) :
    (∀ T', step c T = .ok T' → Meaningful T') ↔ FindsNull c T := by
  cases c with
  | unregister k =>
    refine iff_of_true (fun T' h => ?_) trivial
    obtain ⟨hmax, htable, hreg⟩ := unregister_ok h
    intro n hn
    rw [hmax] at hn
    rw [htable, hreg]
    exact agree_update none fun _ => hT.meaningful n hn
  | register k fd fresh =>
    rcases Nat.lt_or_ge fd T.loop.fdTableMax with hlt | hge
    · refine iff_of_true (fun T' h => ?_) fun hle => absurd hlt (Nat.not_lt.mpr hle)
      rw [register_within hlt, Except.ok.injEq] at h
      subst h
      exact fun n hn => agree_update (some k) fun _ => hT.meaningful n hn
    rcases Nat.lt_or_ge 32000 fd with hhuge | hfd
    · refine iff_of_true (fun T' h => ?_) fun _ hle => absurd hhuge (Nat.not_lt.mpr hle)
      rw [register_huge hge hhuge] at h
      cases h
    -- The table grows: the record is empty above the old size, so the new slots must be null.
    have hrest : ∀ n, T.loop.fdTableMax ≤ n → T.registered n = none := by
      intro n hn
      cases hr : T.registered n with
      | none => rfl
      | some j => exact absurd (hT.below n j hr) (Nat.not_lt.mpr hn)
    constructor
    · intro h _ _ i hlow hhigh hne
      have hi := h _ (register_growing hge hfd) i hhigh
      have hold : T.loop.fdTableMax ≤ i := Nat.le_trans (Nat.le_add_right _ _) hlow
      dsimp only at hi
      rwa [Function.update_of_ne hne, Function.update_of_ne hne, if_neg (Nat.not_lt.mpr hold),
        if_neg (Nat.not_lt.mpr hlow), hrest i hold] at hi
    · intro h T' hstep
      rw [register_growing hge hfd, Except.ok.injEq] at hstep
      subst hstep
      intro n hn
      apply agree_update (some k)
      intro hne
      split
      case isTrue hold => exact hT.meaningful n hold
      case isFalse hold =>
        rw [hrest n (Nat.not_lt.mp hold)]
        split
        · rfl
        case isFalse hhalf => exact h hge hfd n (Nat.not_lt.mp hhalf) hn hne

/-- Every call that leaves a meaningful table keeps the invariant. -/
lemma inv_step {c : Call κ} {T T' : Table κ} (hT : Inv T) (hnull : FindsNull c T)
    (h : step c T = .ok T') : Inv T' := by
  refine ⟨(meaningful_step_iff hT).mpr hnull T' h, ?_, ?_⟩
  · cases c with
    | unregister k => exact (unregister_ok h).1 ▸ hT.size
    | register k fd fresh =>
      rcases Nat.lt_or_ge fd T.loop.fdTableMax with hlt | hge
      · rw [register_within hlt, Except.ok.injEq] at h
        subst h
        exact hT.size
      rcases Nat.lt_or_ge 32000 fd with hhuge | hfd
      · rw [register_huge hge hhuge] at h
        cases h
      · rw [register_growing hge hfd, Except.ok.injEq] at h
        subst h
        exact .inr (grownTo_ge fd _ hT.size)
  · intro n j hj
    cases c with
    | unregister k =>
      obtain ⟨hmax, -, hreg⟩ := unregister_ok h
      rw [hmax]
      rw [hreg] at hj
      by_cases hn : n = (T.loop.mem k).fd
      · rw [hn, Function.update_self] at hj
        cases hj
      · rw [Function.update_of_ne hn] at hj
        exact hT.below n j hj
    | register k fd fresh =>
      have hreg : ∀ max, T.loop.fdTableMax ≤ max → fd < max →
          Function.update T.registered fd (some k) n = some j → n < max := by
        intro max hle hlt hj
        by_cases hn : n = fd
        · exact hn ▸ hlt
        · rw [Function.update_of_ne hn] at hj
          exact Nat.lt_of_lt_of_le (hT.below n j hj) hle
      rcases Nat.lt_or_ge fd T.loop.fdTableMax with hlt | hge
      · rw [register_within hlt, Except.ok.injEq] at h
        subst h
        exact hreg _ (Nat.le_refl _) hlt hj
      rcases Nat.lt_or_ge 32000 fd with hhuge | hfd
      · rw [register_huge hge hhuge] at h
        cases h
      · rw [register_growing hge hfd, Except.ok.injEq] at h
        subst h
        exact hreg _ (le_grownTo fd _) (lt_grownTo hT.size hfd) hj

/-! ## Call sequences -/

/-- The slots below `fd_table_max` say who is registered, after every call of a sequence,
exactly if every call that grows the table finds null memory where it does not clear it. -/
theorem meaningful_iff (calls : List (Call κ)) (L : Loop κ) :
    StaysMeaningful calls (initial L) ↔ Along step FindsNull calls (initial L) := by
  constructor
  · refine Along.of_invariant (fun c T T' hT hC h => ?_)
      (fun c T hT hC => (meaningful_step_iff hT).mp hC) (inv_initial L)
    exact inv_step hT ((meaningful_step_iff hT).mp hC) h
  · exact Along.of_invariant (fun c T T' hT hC h => inv_step hT hC h)
      (fun c T hT hC => (meaningful_step_iff hT).mpr hC) (inv_initial L)

/-- The first registration leaves the upper half of the table as `realloc` found it. -/
theorem not_meaningful_first :
    ¬StaysMeaningful [Call.register () 3 fun _ => .wild]
      (initial { mem := fun _ => {}, listPending := [], fdTable := fun _ => .null, fdTableMax := 0,
                 fill := fun _ => .null, inUse := fun _ => true, interest := fun _ => none }) := by
  intro h
  have hslot := h.1 _ rfl 200 (by decide)
  cases hslot

end FdTable

end Adbd
