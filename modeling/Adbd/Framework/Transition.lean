import Mathlib.Logic.Relation
import Mathlib.Tactic.Lemma

/-!
# Executable machines that may stop

A machine is a step function `ε → σ → Except η σ`: on an event it either moves to the next
state or stops for a reason.  Events carry every answer the environment gives during the step,
so a step is deterministic and a run is a list of events.

Four tools are provided.

* `run`, `Along` and `run_invariant`: runs over event lists, a condition met at every step of a
  run, and the induction rule that turns "each step meeting `C` keeps `Inv`" into "every run
  all of whose steps meet `C` keeps `Inv`".
* `Explained`: a postcondition judgement for one computation `Except η β` started in a state
  `s`.  A success is explained by a path of elementary changes `R` from `s` to the resulting
  state and satisfies the postcondition; a stop is explained by a path to the state in which
  the stop is justified.  `Explained.bind` chains judgements along `do` blocks.
* `Outcome`: a postcondition judgement without the path, for the results of one computation.
* `bind_eq_ok_iff` and `bind_eq_error_iff`: inversion of a `do` block.
-/

namespace Transition

open Relation

universe u

variable {σ ε η : Type*} {β γ : Type u}

/-! ## Runs -/

/-- The state after a list of events, or the reason why the machine stopped on the way. -/
def run (step : ε → σ → Except η σ) : List ε → σ → Except η σ
  | [], s => .ok s
  | e :: es, s => match step e s with
    | .ok s' => run step es s'
    | .error r => .error r

/-- Every step of the run of `es` from `s` is taken in a state that meets `C`. -/
def Along (step : ε → σ → Except η σ) (C : ε → σ → Prop) : List ε → σ → Prop
  | [], _ => True
  | e :: es, s => C e s ∧ ∀ s', step e s = .ok s' → Along step C es s'

variable {step : ε → σ → Except η σ}

lemma run_cons_ok {e : ε} {es : List ε} {s s'' : σ} :
    run step (e :: es) s = .ok s'' ↔
      ∃ s', step e s = .ok s' ∧ run step es s' = .ok s'' := by
  rw [run]
  cases step e s <;> simp

lemma run_append_ok {es fs : List ε} {s s'' : σ} :
    run step (es ++ fs) s = .ok s'' ↔
      ∃ s', run step es s = .ok s' ∧ run step fs s' = .ok s'' := by
  induction es generalizing s with
  | nil => simp [run]
  | cons e es ih =>
    rw [List.cons_append, run_cons_ok]
    constructor
    · rintro ⟨t, ht, hrun⟩
      obtain ⟨u, hu, hfs⟩ := ih.mp hrun
      exact ⟨u, run_cons_ok.mpr ⟨t, ht, hu⟩, hfs⟩
    · rintro ⟨u, hu, hfs⟩
      obtain ⟨t, ht, hes⟩ := run_cons_ok.mp hu
      exact ⟨t, ht, ih.mpr ⟨u, hes, hfs⟩⟩

/-- A property kept by every step that meets `C` is kept by every run whose steps all do. -/
theorem run_invariant {C : ε → σ → Prop} {Inv : σ → Prop}
    (hstep : ∀ e s s', Inv s → C e s → step e s = .ok s' → Inv s')
    {es : List ε} {s s' : σ} (hs : Inv s) (hC : Along step C es s)
    (hrun : run step es s = .ok s') : Inv s' := by
  induction es generalizing s with
  | nil =>
    rw [run, Except.ok.injEq] at hrun
    exact hrun ▸ hs
  | cons e es ih =>
    obtain ⟨t, ht, hes⟩ := run_cons_ok.mp hrun
    exact ih (hstep e s t hs hC.1 ht) (hC.2 t ht) hes

/-- What the steps of a run contribute, in order. -/
def contributed {β : Type*} (step : ε → σ → Except η σ) (f : ε → σ → List β) :
    List ε → σ → List β
  | [], _ => []
  | e :: es, s => match step e s with
    | .ok s' => f e s ++ contributed step f es s'
    | .error _ => []

/-- A relation between the state and what has been contributed so far. -/
theorem contributed_invariant {β : Type*} {f : ε → σ → List β} {C : ε → σ → Prop}
    {Inv : List β → σ → Prop}
    (hstep : ∀ l e s s', Inv l s → C e s → step e s = .ok s' → Inv (l ++ f e s) s')
    {es : List ε} {s s' : σ} {l : List β} (hs : Inv l s) (hC : Along step C es s)
    (hrun : run step es s = .ok s') : Inv (l ++ contributed step f es s) s' := by
  induction es generalizing s l with
  | nil =>
    rw [run, Except.ok.injEq] at hrun
    rw [contributed, List.append_nil]
    exact hrun ▸ hs
  | cons e es ih =>
    obtain ⟨t, ht, hes⟩ := run_cons_ok.mp hrun
    rw [contributed, ht, ← List.append_assoc]
    exact ih (hstep l e s t hs hC.1 ht) (hC.2 t ht) hes

/-- Something that does not hold at first and holds at the end of a run was brought about by one
of its steps. -/
theorem exists_origin {Inv P : σ → Prop} {C : ε → σ → Prop}
    (hinv : ∀ e s s', Inv s → step e s = .ok s' → Inv s')
    (hstep : ∀ e s s', Inv s → step e s = .ok s' → P s' → P s ∨ C e s)
    {es : List ε} {s s' : σ} (hs : Inv s) (hfirst : ¬P s) (hrun : run step es s = .ok s')
    (hlast : P s') :
    ∃ es₁ e es₂ s₁, es = es₁ ++ e :: es₂ ∧ run step es₁ s = .ok s₁ ∧ Inv s₁ ∧ C e s₁ := by
  induction es generalizing s with
  | nil =>
    rw [run, Except.ok.injEq] at hrun
    exact absurd (hrun ▸ hlast) hfirst
  | cons e es ih =>
    obtain ⟨t, ht, hes⟩ := run_cons_ok.mp hrun
    by_cases hP : P t
    · exact ⟨[], e, es, s, rfl, rfl, hs, (hstep e s t hs ht hP).resolve_left hfirst⟩
    · obtain ⟨es₁, f, es₂, s₁, rfl, hrun₁, hs₁, hC⟩ := ih (hinv e s t hs ht) hP hes
      exact ⟨e :: es₁, f, es₂, s₁, rfl, run_cons_ok.mpr ⟨t, ht, hrun₁⟩, hs₁, hC⟩

lemma Along.mono {C D : ε → σ → Prop} (hCD : ∀ e s, C e s → D e s) {es : List ε} {s : σ}
    (h : Along step C es s) : Along step D es s := by
  induction es generalizing s with
  | nil => trivial
  | cons e es ih => exact ⟨hCD e s h.1, fun s' hs' => ih (h.2 s' hs')⟩

lemma Along.cons_ok {C : ε → σ → Prop} {e : ε} {es : List ε} {s s' : σ} (hC : C e s)
    (hs : step e s = .ok s') (h : Along step C es s') : Along step C (e :: es) s := by
  refine ⟨hC, fun t ht => ?_⟩
  cases hs.symm.trans ht
  exact h

/-- The first part of a run that meets `C`. -/
lemma Along.append_left {C : ε → σ → Prop} {es fs : List ε} {s : σ}
    (h : Along step C (es ++ fs) s) : Along step C es s := by
  induction es generalizing s with
  | nil => trivial
  | cons e es ih => exact ⟨h.1, fun s' hs' => ih (h.2 s' hs')⟩

lemma along_true {es : List ε} {s : σ} : Along step (fun _ _ => True) es s := by
  induction es generalizing s with
  | nil => trivial
  | cons e es ih => exact ⟨trivial, fun _ _ => ih⟩

/-- Along a run that meets `C`, a condition that follows from `C` and an invariant is met. -/
theorem Along.of_invariant {C D : ε → σ → Prop} {Inv : σ → Prop}
    (hstep : ∀ e s s', Inv s → C e s → step e s = .ok s' → Inv s')
    (hCD : ∀ e s, Inv s → C e s → D e s)
    {es : List ε} {s : σ} (hs : Inv s) (h : Along step C es s) : Along step D es s := by
  induction es generalizing s with
  | nil => trivial
  | cons e es ih =>
    exact ⟨hCD e s hs h.1, fun s' hs' => ih (hstep e s s' hs h.1 hs') (h.2 s' hs')⟩

/-! ## Runs that are tested -/

/-- The state after a list of events, if each step passes the test `c` before it is taken. -/
def walk (step : ε → σ → Except η σ) (c : ε → σ → Bool) : List ε → σ → Option σ
  | [], s => some s
  | e :: es, s => if c e s then (step e s).toOption.bind (walk step c es) else none

lemma of_walk {c : ε → σ → Bool} {es : List ε} {s s' : σ} (h : walk step c es s = some s') :
    run step es s = .ok s' ∧ Along step (fun e s => c e s = true) es s := by
  induction es generalizing s with
  | nil =>
    rw [walk, Option.some.injEq] at h
    exact ⟨by rw [run, h], trivial⟩
  | cons e es ih =>
    rw [walk] at h
    split at h
    case isFalse => cases h
    case isTrue hc =>
      rw [Option.bind_eq_some_iff] at h
      obtain ⟨t, ht, hwalk⟩ := h
      have hstep : step e s = .ok t := by
        cases hx : step e s with
        | error r =>
          rw [hx] at ht
          cases ht
        | ok u =>
          rw [hx] at ht
          exact congrArg _ (Option.some.inj ht)
      obtain ⟨hrun, halong⟩ := ih hwalk
      exact ⟨run_cons_ok.mpr ⟨t, hstep, hrun⟩, Along.cons_ok hc hstep halong⟩

/-- What a computed result passes, it has. -/
lemma of_any {α : Type*} {x : Except η α} {c : α → Bool} (h : x.toOption.any c = true) :
    ∃ a, x = .ok a ∧ c a = true := by
  cases x with
  | error e => cases h
  | ok a => exact ⟨a, rfl, h⟩

/-! ## Successful `do` blocks -/

/-- A `do` block succeeds exactly when both of its halves do. -/
lemma bind_eq_ok_iff {x : Except η β} {f : β → Except η γ} {c : γ} :
    x >>= f = .ok c ↔ ∃ b, x = .ok b ∧ f b = .ok c := by
  cases x <;> simp [bind, Except.bind]

/-- A `do` block stops exactly when one of its halves does. -/
lemma bind_eq_error_iff {x : Except η β} {f : β → Except η γ} {e : η} :
    x >>= f = .error e ↔ x = .error e ∨ ∃ b, x = .ok b ∧ f b = .error e := by
  cases x <;> simp [bind, Except.bind]

/-! ## Outcomes -/

/-- A success returns what satisfies `Q`, and a stop is one of `E`. -/
def Outcome (x : Except η β) (Q : β → Prop) (E : η → Prop) : Prop :=
  match x with
  | .ok b => Q b
  | .error e => E e

/-- A success returns what satisfies `Q`. -/
abbrev Ensures (x : Except η β) (Q : β → Prop) : Prop := Outcome x Q fun _ => True

namespace Outcome

variable {x : Except η β} {Q P : β → Prop} {E : η → Prop}

lemma ok {b : β} (h : Q b) : Outcome (.ok b : Except η β) Q E := h

lemma error {e : η} (h : E e) : Outcome (.error e : Except η β) Q E := h

lemma of_eq {b : β} (hx : x = .ok b) (h : Q b) : Outcome x Q E := by
  rw [hx]
  exact h

/-- Chaining along `do`. -/
lemma bind {f : β → Except η γ} {R : γ → Prop} (hx : Outcome x Q E)
    (hf : ∀ b, x = .ok b → Q b → Outcome (f b) R E) : Outcome (x >>= f) R E := by
  cases x with
  | error e => exact hx
  | ok b => exact hf b rfl hx

lemma imp {F : η → Prop} (hx : Outcome x Q E) (h : ∀ b, Q b → P b) (hE : ∀ e, E e → F e) :
    Outcome x P F := by
  cases x with
  | error e => exact hE e hx
  | ok b => exact h b hx

lemma mono (hx : Outcome x Q E) (h : ∀ b, Q b → P b) : Outcome x P E := hx.imp h fun _ => id

lemma success (hx : Outcome x Q E) {b : β} (h : x = .ok b) : Q b := by
  subst h
  exact hx

lemma stop (hx : Outcome x Q E) {e : η} (h : x = .error e) : E e := by
  subst h
  exact hx

/-- A loop over a list whose invariant speaks of the elements that are left. -/
lemma foldlM {α : Type*} {σ : Type u} {f : σ → α → Except η σ} {I : List α → σ → Prop}
    (hstep : ∀ a k s, I (a :: k) s → Outcome (f s a) (I k) E) (l k : List α) (s : σ)
    (h : I (l ++ k) s) : Outcome (l.foldlM f s) (I k) E := by
  induction l generalizing s with
  | nil => exact h
  | cons a l ih =>
    rw [List.foldlM_cons]
    exact Outcome.bind (hstep a (l ++ k) s h) fun s' _ hs' => ih s' hs'

/-- A computation that cannot stop succeeds. -/
lemma exists_ok (hx : Outcome x Q fun _ => False) : ∃ b, x = .ok b ∧ Q b := by
  cases x with
  | error e => exact hx.elim
  | ok b => exact ⟨b, rfl, hx⟩

end Outcome

/-! ## Explained computations -/

/-- The computation `x`, started in `s`, is explained by changes `R`: a success leads along `R`
to the state `p b` and satisfies `Q`; a stop `e` happens in a state reached along `R` in which
`F` justifies it. -/
def Explained (R : σ → σ → Prop) (F : σ → η → Prop) (p : β → σ) (s : σ)
    (x : Except η β) (Q : β → Prop) : Prop :=
  match x with
  | .ok b => ReflTransGen R s (p b) ∧ Q b
  | .error e => ∃ s', ReflTransGen R s s' ∧ F s' e

variable {R : σ → σ → Prop} {F : σ → η → Prop} {p : β → σ} {q : γ → σ}

namespace Explained

lemma ok {s : σ} {b : β} {Q : β → Prop} (hp : ReflTransGen R s (p b)) (hQ : Q b) :
    Explained R F p s (.ok b) Q :=
  ⟨hp, hQ⟩

lemma error {s : σ} {e : η} {Q : β → Prop} (h : F s e) : Explained R F p s (.error e) Q :=
  ⟨s, .refl, h⟩

/-- Chaining along `do`: the second half starts where the first one ended. -/
lemma bind {s : σ} {x : Except η β} {f : β → Except η γ} {Q : β → Prop} {Q' : γ → Prop}
    (hx : Explained R F p s x Q)
    (hf : ∀ b, ReflTransGen R s (p b) → Q b → Explained R F q (p b) (f b) Q') :
    Explained R F q s (x >>= f) Q' := by
  match x, hx with
  | .error e, ⟨s', hs', he⟩ => exact ⟨s', hs', he⟩
  | .ok b, ⟨hb, hQ⟩ =>
    have h := hf b hb hQ
    show Explained R F q s (f b) Q'
    match hfb : f b, h with
    | .ok c, h => exact ⟨hb.trans h.1, h.2⟩
    | .error e, ⟨s', hs', he⟩ => exact ⟨s', hb.trans hs', he⟩

lemma mono {s : σ} {x : Except η β} {Q Q' : β → Prop} (hx : Explained R F p s x Q)
    (h : ∀ b, ReflTransGen R s (p b) → Q b → Q' b) : Explained R F p s x Q' := by
  match x, hx with
  | .ok b, hx => exact ⟨hx.1, h b hx.1 hx.2⟩
  | .error e, hx => exact hx

/-- Prefixing a computation by changes already made. -/
lemma of_path {s t : σ} {x : Except η β} {Q : β → Prop} (hst : ReflTransGen R s t)
    (hx : Explained R F p t x Q) : Explained R F p s x Q := by
  match x, hx with
  | .ok b, hx => exact ⟨hst.trans hx.1, hx.2⟩
  | .error e, ⟨s', hs', he⟩ => exact ⟨s', hst.trans hs', he⟩

lemma path {s : σ} {x : Except η β} {Q : β → Prop} {b : β} (h : Explained R F p s x Q)
    (hx : x = .ok b) : ReflTransGen R s (p b) := by
  subst hx
  exact h.1

lemma post {s : σ} {x : Except η β} {Q : β → Prop} {b : β} (h : Explained R F p s x Q)
    (hx : x = .ok b) : Q b := by
  subst hx
  exact h.2

lemma stop {s : σ} {x : Except η β} {Q : β → Prop} {e : η} (h : Explained R F p s x Q)
    (hx : x = .error e) : ∃ s', ReflTransGen R s s' ∧ F s' e := by
  subst hx
  exact h

end Explained

/-- A property kept by every change is kept along a path of changes. -/
lemma path_invariant {Inv : σ → Prop} (h : ∀ s s', Inv s → R s s' → Inv s') {s s' : σ}
    (hp : ReflTransGen R s s') (hs : Inv s) : Inv s' := by
  induction hp with
  | refl => exact hs
  | tail _ hstep ih => exact h _ _ ih hstep

end Transition
