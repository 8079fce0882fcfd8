import Adbd.Framework.History
import Adbd.Effects.Step

/-!
# The life of a transport

A transport is allocated, waits in the registration queue, runs its two threads, is torn down by
whichever of them ends last, waits in the queue again and is freed.  What the history says about
a transport is at every moment a beginning of the one list `fetched register`, `kick`, `close`,
`posted`, `fetched remove`; so the teardown happens once and in this order.

The descriptors do not fare as well: `t->close` of the TCP transport closes `t->fd`, and
`transport_registration_func` closes the number again when it removes the transport.
-/

namespace Adbd.Teardown

open Function FlagWord Transition Relation Daemon History

/-! ## What counts -/

/-- How far a thread has got with the teardown. -/
inductive Stage
  | work
  | kick
  | unref
  | done
  deriving DecidableEq

def outputStage : OutputPc → Stage
  | .kickCall => .kick
  | .unref => .unref
  | .done => .done
  | _ => .work

def inputStage : InputPc → Stage
  | .kickCall => .kick
  | .unref => .unref
  | .done => .done
  | _ => .work

/-- What the life of a transport depends on: `own` and `other` are its two threads, in either
order. -/
structure Core where
  state : ConnectionState
  own : Stage
  other : Stage
  kicked : Bool

def core (x : Atransport) : Core :=
  ⟨x.connectionState, outputStage x.output, inputStage x.input, x.kicked⟩

def Core.swap (c : Core) : Core := ⟨c.state, c.other, c.own, c.kicked⟩

/-- The observations of the life of `t`. -/
def isLife (t : TAddr) : Obs → Bool
  | .fetched u _ | .kick u | .close u | .posted u => u = t
  | _ => false

/-- The life of `t` so far, newest first. -/
def lifeOf (t : TAddr) (os : List Obs) : List Obs := os.filter (isLife t)

/-- What `t` is queued for. -/
def queueOf (t : TAddr) (R : List (TAddr × RegAction)) : List RegAction :=
  (R.filter fun r => r.1 = t).map Prod.snd

/-- A thread is about to call `t->kick`. -/
def Core.Kicking (c : Core) : Prop := c.own = .kick ∨ c.other = .kick

instance (c : Core) : Decidable c.Kicking := inferInstanceAs (Decidable (_ ∨ _))

/-- The threads of a transport that is running: one kicks at most, and none has got beyond the
test of `kicked` before the transport is marked. -/
structure Threads (c : Core) : Prop where
  running : c.own ≠ .done ∨ c.other ≠ .done
  alone : ¬(c.own = .kick ∧ c.other = .kick)
  marked : c.own ≠ .work ∨ c.other ≠ .work → c.kicked = true

/-- The life of a running transport, as a function of its threads. -/
def runningLife (t : TAddr) (c : Core) : List Obs :=
  if c.kicked = true ∧ ¬c.Kicking then [.kick t, .fetched t .register] else [.fetched t .register]

/-- The life of a transport, phase by phase: whether it is allocated, its threads if it is alive,
what it is queued for, and its history. -/
inductive Phase (t : TAddr) : Bool → Option Core → List RegAction → List Obs → Prop
  | unborn : Phase t false none [] []
  | waiting : Phase t true (some ⟨.offline, .done, .done, false⟩) [.register] []
  | running (c : Core) (h : Threads c) : Phase t true (some c) [] (runningLife t c)
  | posted (c : Core) (hown : c.own = .done) (hother : c.other = .done) :
    Phase t true (some c) [.remove] [.posted t, .close t, .kick t, .fetched t .register]
  | fetched (c : Core) (hown : c.own = .done) (hother : c.other = .done) :
    Phase t true (some c) []
      [.fetched t .remove, .posted t, .close t, .kick t, .fetched t .register]
  | freed : Phase t true none []
      [.fetched t .remove, .posted t, .close t, .kick t, .fetched t .register]

/-- The phase of `t` in the state `D`. -/
def Life (t : TAddr) (D : Daemon) : Prop :=
  Phase t (t < D.nextTAddr) ((D.transports t).map core) (queueOf t D.registration)
    (lifeOf t D.trace)

/-! ## Frames -/

section Frames

variable {t u : TAddr} {x x' : Atransport} {T : TAddr → Option Atransport} {D D' : Daemon}
  {os : List Obs} {o : Obs} {R : List (TAddr × RegAction)} {a : RegAction}

lemma lifeOf_cons (h : isLife t o = false) : lifeOf t (o :: os) = lifeOf t os := by
  rw [lifeOf, List.filter_cons, h]
  rfl

lemma lifeOf_cons_self (h : isLife t o = true) : lifeOf t (o :: os) = o :: lifeOf t os := by
  rw [lifeOf, List.filter_cons, h]
  rfl

lemma lifeOf_append (os os' : List Obs) : lifeOf t (os ++ os') = lifeOf t os ++ lifeOf t os' :=
  List.filter_append ..

lemma lifeOf_eq_nil (h : ∀ o ∈ os, isLife t o = false) : lifeOf t os = [] := by
  rw [lifeOf, List.filter_eq_nil_iff]
  intro o ho
  rw [h o ho]
  decide

lemma queueOf_cons (h : u ≠ t) : queueOf t ((u, a) :: R) = queueOf t R := by
  simp [queueOf, h]

lemma queueOf_cons_self : queueOf t ((t, a) :: R) = a :: queueOf t R := by
  simp [queueOf]

lemma queueOf_append (R S : List (TAddr × RegAction)) :
    queueOf t (R ++ S) = queueOf t R ++ queueOf t S := by
  simp [queueOf]

lemma mem_queueOf : a ∈ queueOf t R ↔ (t, a) ∈ R := by
  simp [queueOf]

/-- Assigning to other fields of some transport. -/
lemma core_assign (hx : T u = some x) (h : core x' = core x) :
    (update T u (some x') t).map core = (T t).map core := by
  by_cases htu : t = u
  · subst htu
    rw [update_self, hx, Option.map_some, Option.map_some, h]
  · rw [update_of_ne htu]

/-- The life of `t` does not depend on anything else. -/
lemma Life.congr (h : Life t D) (hN : D'.nextTAddr = D.nextTAddr)
    (hT : (D'.transports t).map core = (D.transports t).map core)
    (hR : queueOf t D'.registration = queueOf t D.registration)
    (ho : lifeOf t D'.trace = lifeOf t D.trace) : Life t D' := by
  rw [Life, hN, hT, hR, ho]
  exact h

end Frames

/-! ## The threads -/

/-- A step of the thread `own`: what becomes of the two, what it adds to the history and what
to the queue. -/
inductive ThreadStep (t : TAddr) (c : Core) : Core → List Obs → List RegAction → Prop
  | work (s : Stage) (hown : c.own = .work) (hs : s = .work ∨ s = .unref ∧ c.kicked = true) :
    ThreadStep t c { c with own := s } [] []
  | lock (hown : c.own = .work) (hkicked : c.kicked = false) :
    ThreadStep t c { c with own := .kick, kicked := true } [] []
  | kick (hown : c.own = .kick) : ThreadStep t c { c with own := .unref } [.kick t] []
  | drop (hown : c.own = .unref) (hother : c.other ≠ .done) :
    ThreadStep t c { c with own := .done } [] []
  | last (hown : c.own = .unref) (hother : c.other = .done) :
    ThreadStep t c { c with own := .done } [.posted t, .close t] [.remove]

section ThreadSteps

variable {t u : TAddr} {x y : Atransport} {D : Daemon} {L M : Loop FdeId}
  {R S : List (TAddr × RegAction)} {os : List Obs} {packet : Option Apacket} {c c' : Core}
  {q : List RegAction} {l : List Obs}

lemma Threads.swap (h : Threads c) : Threads c.swap :=
  ⟨h.running.symm, fun hno => h.alone hno.symm, fun hw => h.marked hw.symm⟩

lemma runningLife_swap (t : TAddr) (c : Core) : runningLife t c.swap = runningLife t c := by
  rw [runningLife, runningLife]
  exact if_congr (and_congr Iff.rfl (not_congr or_comm)) rfl rfl

/-- Nothing depends on which thread is which. -/
lemma Phase.swap {b : Bool} (h : Phase t b (some c) q l) : Phase t b (some c.swap) q l := by
  cases h with
  | waiting => exact .waiting
  | running c h =>
    rw [← runningLife_swap]
    exact .running _ h.swap
  | posted c hown hother => exact .posted _ hother hown
  | fetched c hown hother => exact .fetched _ hother hown

lemma Phase.of_running (h : Threads c) (hl : l = runningLife t c) :
    Phase t true (some c) [] l := by
  rw [hl]
  exact .running c h

/-- What a step of a thread makes of a running transport. -/
theorem ThreadStep.phase (h : ThreadStep t c c' os q) (hc : Threads c) :
    Phase t true (some c') q (os ++ runningLife t c) := by
  have halone := hc.alone
  have hmarked := hc.marked
  cases h with
  | work s hown hs =>
    have hs' : s ≠ .kick ∧ s ≠ .done := by
      rcases hs with rfl | ⟨rfl, -⟩ <;> simp
    refine .of_running ⟨.inl hs'.2, fun hno => hs'.1 hno.1, ?_⟩ ?_
    · rintro (hw | hw)
      · exact (hs.resolve_left hw).2
      · exact hmarked (.inr hw)
    · simp [runningLife, Core.Kicking, hown, hs'.1]
  | lock hown hkicked =>
    have hother : c.other = .work := by
      by_contra hno
      cases hkicked.symm.trans (hmarked (.inr hno))
    refine .of_running ⟨.inl (by simp), ?_, fun _ => rfl⟩ ?_
    · rw [hother]
      simp
    · simp [runningLife, Core.Kicking, hkicked]
  | kick hown =>
    have hk : c.kicked = true := hmarked (.inl (by simp [hown]))
    have hother : c.other ≠ .kick := fun hno => halone ⟨hown, hno⟩
    refine .of_running ⟨.inl (by simp), by simp, fun _ => hk⟩ ?_
    simp [runningLife, Core.Kicking, hown, hk, hother]
  | drop hown hother =>
    have hk : c.kicked = true := hmarked (.inl (by simp [hown]))
    refine .of_running ⟨.inr hother, by simp, fun _ => hk⟩ ?_
    simp [runningLife, Core.Kicking, hown]
  | last hown hother =>
    have hk : c.kicked = true := hmarked (.inl (by simp [hown]))
    have hrun : runningLife t c = [.kick t, .fetched t .register] := by
      simp [runningLife, Core.Kicking, hown, hother, hk]
    rw [hrun]
    exact .posted _ rfl hother

lemma lifeOf_kick (h : Kick t x L y M os) : lifeOf t os = [.kick t] := by
  cases h <;> simp [lifeOf, isLife]

lemma lifeOf_close (h : CloseT t x L M os) : lifeOf t os = [.close t] := by
  cases h <;> simp [lifeOf, isLife]

lemma stages_of_running (h : x.running = 0) :
    outputStage x.output = .done ∧ inputStage x.input = .done := by
  rw [Atransport.running] at h
  constructor
  · by_cases hout : x.output = .done
    · rw [hout, outputStage]
    · rw [if_neg hout] at h
      omega
  · by_cases hin : x.input = .done
    · rw [hin, inputStage]
    · rw [if_neg hin] at h
      omega

lemma outputStage_eq_done {pc : OutputPc} : outputStage pc = .done ↔ pc = .done := by
  cases pc <;> simp [outputStage]

lemma inputStage_eq_done {pc : InputPc} : inputStage pc = .done ↔ pc = .done := by
  cases pc <;> simp [inputStage]

/-- Dropping a reference: the history and the queue. -/
lemma unref_cases (h : Unref t x L R y M S os) (hkicked : x.kicked = true)
    (href : x.refCount = x.running + 1) : core y = core x ∧
      (x.running ≠ 0 ∧ S = R ∧ lifeOf t os = [] ∨
        x.running = 0 ∧ S = R ++ [(t, .remove)] ∧ lifeOf t os = [.posted t, .close t]) := by
  cases h with
  | shared hne => exact ⟨rfl, .inl ⟨by omega, rfl, rfl⟩⟩
  | last M os hlast _ hclose =>
    refine ⟨rfl, .inr ⟨by omega, rfl, ?_⟩⟩
    rw [lifeOf_cons_self (by simp [isLife]), lifeOf_close hclose]
  | kicks z M N os os' _ hno => exact absurd (hno.symm.trans hkicked) (by decide)

/-- A step of `output_thread`. -/
lemma output_threadStep (h : OutputStep packet t D x y L R os) (href : x.refCount = x.running)
    (hkicked : x.output = .unref → x.kicked = true) :
    ∃ q, ThreadStep t (core x) (core y) (lifeOf t os) q ∧
      queueOf t R = queueOf t D.registration ++ q := by
  have hquiet : queueOf t D.registration = queueOf t D.registration ++ [] :=
    (List.append_nil _).symm
  cases h with
  | greet p hpc => exact ⟨[], .work .work (by simp [core, hpc, outputStage]) (.inl rfl), hquiet⟩
  | push p hpc => exact ⟨[], .work .work (by simp [core, hpc, outputStage]) (.inl rfl), hquiet⟩
  | ended i hpc => exact ⟨[], .work .work (by simp [core, hpc, outputStage]) (.inl rfl), hquiet⟩
  | sync p hpc => exact ⟨[], .work .work (by simp [core, hpc, outputStage]) (.inl rfl), hquiet⟩
  | fail token i hpc =>
    refine ⟨[], .work .work ?_ (.inl rfl), hquiet⟩
    rcases hpc with h | h | h <;> simp [core, h, outputStage]
  | test pc hpc hpc' =>
    have hown : (core x).own = .work := by
      rcases hpc with h | h <;> simp [core, h, outputStage]
    rcases hpc' with rfl | ⟨rfl, hk⟩
    · exact ⟨[], .work .work hown (.inl rfl), hquiet⟩
    · exact ⟨[], .work .unref hown (.inr ⟨rfl, hk⟩), hquiet⟩
  | lock hpc hk => exact ⟨[], .lock (by simp [core, hpc, outputStage]) hk, hquiet⟩
  | kick z L os hpc hkick =>
    have hz : core { z with output := .unref } = { core x with own := .unref } := by
      rw [hkick.frame]
      rfl
    rw [hz, lifeOf_kick hkick]
    exact ⟨[], .kick (by simp [core, hpc, outputStage]), hquiet⟩
  | unref z L R os hpc hunref =>
    have hrun : x.running = Atransport.running { x with output := .done } + 1 := by
      simp [Atransport.running, hpc]
      omega
    have hown : (core x).own = .unref := by simp [core, hpc, outputStage]
    obtain ⟨hz, hcases⟩ := unref_cases hunref (hkicked hpc) (href.trans hrun)
    rw [show core y = { core x with own := .done } from hz]
    rcases hcases with ⟨hne, rfl, hos⟩ | ⟨hlast, rfl, hos⟩
    · refine ⟨[], ?_, hquiet⟩
      rw [hos]
      refine .drop hown fun hdone => hne ?_
      have hin : x.input = .done := inputStage_eq_done.mp hdone
      simp [Atransport.running, hin]
    · refine ⟨[.remove], ?_, ?_⟩
      · rw [hos]
        exact .last hown (stages_of_running hlast).2
      · rw [queueOf_append]
        simp [queueOf]

/-- A step of `input_thread`. -/
lemma input_threadStep (h : InputStep t D x y L R os) (href : x.refCount = x.running)
    (hkicked : x.input = .unref → x.kicked = true) :
    ∃ q, ThreadStep t (core x).swap (core y).swap (lifeOf t os) q ∧
      queueOf t R = queueOf t D.registration ++ q := by
  have hquiet : queueOf t D.registration = queueOf t D.registration ++ [] :=
    (List.append_nil _).symm
  cases h with
  | take p rest hpc =>
    refine ⟨[], ?_, hquiet⟩
    have hos : lifeOf t (.put p.addr :: forwarded t x p) = [] := by
      rw [forwarded]
      split <;> simp [lifeOf, isLife]
    have hown : (core x).swap.own = .work := by simp [core, Core.swap, hpc, inputStage]
    have hsame : { (core x).swap with own := .work } = (core x).swap := by rw [← hown]
    have hstep : ThreadStep t _ _ [] [] := .work .work hown (.inl rfl)
    rw [hsame] at hstep
    rw [hos]
    exact hstep
  | final p rest hpc =>
    exact ⟨[], .work .work (by simp [core, Core.swap, hpc, inputStage]) (.inl rfl), hquiet⟩
  | eof hpc =>
    exact ⟨[], .work .work (by simp [core, Core.swap, hpc, inputStage]) (.inl rfl), hquiet⟩
  | test pc hpc hpc' =>
    have hown : (core x).swap.own = .work := by
      rcases hpc with h | h <;> simp [core, Core.swap, h, inputStage]
    rcases hpc' with rfl | ⟨rfl, hk⟩
    · exact ⟨[], .work .work hown (.inl rfl), hquiet⟩
    · exact ⟨[], .work .unref hown (.inr ⟨rfl, hk⟩), hquiet⟩
  | lock hpc hk => exact ⟨[], .lock (by simp [core, Core.swap, hpc, inputStage]) hk, hquiet⟩
  | kick z L os hpc hkick =>
    have hz : core { z with input := .unref } = { core x with other := .unref } := by
      rw [hkick.frame]
      rfl
    rw [hz, lifeOf_kick hkick]
    exact ⟨[], .kick (by simp [core, Core.swap, hpc, inputStage]), hquiet⟩
  | unref z L R os hpc hunref =>
    have hrun : x.running = Atransport.running { x with input := .done } + 1 := by
      simp [Atransport.running, hpc]
    have hown : (core x).swap.own = .unref := by simp [core, Core.swap, hpc, inputStage]
    obtain ⟨hz, hcases⟩ := unref_cases hunref (hkicked hpc) (href.trans hrun)
    rw [show core y = { core x with other := .done } from hz]
    rcases hcases with ⟨hne, rfl, hos⟩ | ⟨hlast, rfl, hos⟩
    · refine ⟨[], ?_, hquiet⟩
      rw [hos]
      refine .drop hown fun hdone => hne ?_
      have hout : x.output = .done := outputStage_eq_done.mp hdone
      simp [Atransport.running, hout]
    · refine ⟨[.remove], ?_, ?_⟩
      · rw [hos]
        exact .last hown (stages_of_running hlast).1
      · rw [queueOf_append]
        simp [queueOf]

end ThreadSteps

/-! ## Every change -/

section Changes

variable {e : Event} {D₀ : Daemon} {m m' : Moment} {t u : TAddr} {x : Atransport}
  {R : List (TAddr × RegAction)}

/-- A transport with a thread that has not ended is running. -/
lemma Life.running {D : Daemon} (h : Life t D) (hx : D.transports t = some x)
    (hrun : x.running ≠ 0) :
    t < D.nextTAddr ∧ Threads (core x) ∧ queueOf t D.registration = [] ∧
      lifeOf t D.trace = runningLife t (core x) := by
  have hpc : ¬((core x).own = .done ∧ (core x).other = .done) := by
    rintro ⟨hown, hother⟩
    apply hrun
    rw [Atransport.running, if_pos (outputStage_eq_done.mp hown),
      if_pos (inputStage_eq_done.mp hother)]
  rw [Life, hx, Option.map_some] at h
  generalize core x = c at h hpc ⊢
  generalize hb : decide (t < D.nextTAddr) = b at h
  generalize queueOf t D.registration = q at h ⊢
  generalize lifeOf t D.trace = l at h ⊢
  cases h with
  | waiting => exact absurd ⟨rfl, rfl⟩ hpc
  | running c h => exact ⟨of_decide_eq_true hb, h, rfl, rfl⟩
  | posted c hown hother => exact absurd ⟨hown, hother⟩ hpc
  | fetched c hown hother => exact absurd ⟨hown, hother⟩ hpc

/-- A transport that is queued for registration waits. -/
lemma Life.waiting {D : Daemon} (h : Life t D) (hx : D.transports t = some x)
    (hq : .register ∈ queueOf t D.registration) :
    t < D.nextTAddr ∧ core x = ⟨.offline, .done, .done, false⟩ ∧
      queueOf t D.registration = [.register] ∧ lifeOf t D.trace = [] := by
  rw [Life, hx, Option.map_some] at h
  generalize core x = c at h ⊢
  generalize hb : decide (t < D.nextTAddr) = b at h
  generalize queueOf t D.registration = q at h hq ⊢
  generalize lifeOf t D.trace = l at h ⊢
  cases h with
  | waiting => exact ⟨of_decide_eq_true hb, rfl, rfl, rfl⟩
  | running c h => cases hq
  | posted c => simp at hq
  | fetched c => cases hq

/-- A transport that is queued for its removal has been posted. -/
lemma Life.removing {D : Daemon} (h : Life t D) (hq : .remove ∈ queueOf t D.registration) :
    ∃ x, D.transports t = some x ∧ t < D.nextTAddr ∧ (core x).own = .done ∧
      (core x).other = .done ∧ queueOf t D.registration = [.remove] ∧
      lifeOf t D.trace = [.posted t, .close t, .kick t, .fetched t .register] := by
  rw [Life] at h
  generalize hb : decide (t < D.nextTAddr) = b at h
  generalize queueOf t D.registration = q at h hq ⊢
  generalize lifeOf t D.trace = l at h ⊢
  generalize hc : (D.transports t).map core = o at h
  cases h with
  | posted c hown hother =>
    obtain ⟨x, hx, rfl⟩ := Option.map_eq_some_iff.mp hc
    exact ⟨x, hx, of_decide_eq_true hb, hown, hother, rfl, rfl⟩
  | waiting => simp at hq
  | _ => cases hq

/-- An address nobody has yet. -/
lemma Life.unborn {D : Daemon} (h : Life t D) (hN : D.nextTAddr ≤ t) :
    queueOf t D.registration = [] ∧ lifeOf t D.trace = [] := by
  rw [Life, decide_eq_false (Nat.not_lt.mpr hN)] at h
  generalize queueOf t D.registration = q at h ⊢
  generalize lifeOf t D.trace = l at h ⊢
  generalize (D.transports t).map core = o at h
  cases h
  exact ⟨rfl, rfl⟩

/-- A transport that was posted and is not queued any more is about to be freed. -/
lemma Life.fetched {D : Daemon} (h : Life t D) (hx : D.transports t = some x)
    (hq : .remove ∉ queueOf t D.registration) (hposted : .posted t ∈ D.trace) :
    t < D.nextTAddr ∧ queueOf t D.registration = [] ∧ lifeOf t D.trace =
      [.fetched t .remove, .posted t, .close t, .kick t, .fetched t .register] := by
  have hmem : .posted t ∈ lifeOf t D.trace := by
    rw [lifeOf, List.mem_filter]
    exact ⟨hposted, by simp [isLife]⟩
  rw [Life, hx, Option.map_some] at h
  generalize core x = c at h
  generalize hb : decide (t < D.nextTAddr) = b at h
  generalize queueOf t D.registration = q at h hq ⊢
  generalize lifeOf t D.trace = l at h hmem ⊢
  cases h with
  | waiting => cases hmem
  | running c h =>
    rw [runningLife] at hmem
    split at hmem <;> simp at hmem
  | posted c => simp at hq
  | fetched c => exact ⟨of_decide_eq_true hb, rfl, rfl⟩

/-- The connection state is assigned after the registration. -/
lemma Life.state {D D' : Daemon} (h : Life t D) (hx : D.transports t = some x)
    (hq : .register ∉ queueOf t D.registration) {y : Atransport}
    (hT : D'.transports = update D.transports t (some y))
    (hcore : core y = { core x with state := y.connectionState })
    (hN : D'.nextTAddr = D.nextTAddr) (hR : D'.registration = D.registration)
    (ho : lifeOf t D'.trace = lifeOf t D.trace) : Life t D' := by
  rw [Life, hT, hN, hR, ho, update_self, Option.map_some, hcore]
  rw [Life, hx, Option.map_some] at h
  generalize y.connectionState = st
  generalize core x = c at h ⊢
  generalize decide (t < D.nextTAddr) = b at h ⊢
  generalize queueOf t D.registration = q at h hq ⊢
  generalize lifeOf t D.trace = l at h ⊢
  cases h with
  | waiting => simp at hq
  | running c h => exact .running { c with state := st } ⟨h.running, h.alone, h.marked⟩
  | posted c hown hother => exact .posted { c with state := st } hown hother
  | fetched c hown hother => exact .fetched { c with state := st } hown hother

/-- A thread of `t` makes a step. -/
lemma life_thread {y : Atransport} {L : Loop FdeId} {os : List Obs} {q : List RegAction} {n : ℕ}
    (hx : m.d.transports t = some x) (hlife : Life t m.d) (hrun : x.running ≠ 0)
    (h : ThreadStep t (core x) (core y) (lifeOf t os) q ∨
      ThreadStep t (core x).swap (core y).swap (lifeOf t os) q)
    (hR : queueOf t R = queueOf t m.d.registration ++ q) :
    Life t (m.d.threadResult t y L R os n) := by
  obtain ⟨hN, hthreads, hq, hos⟩ := hlife.running hx hrun
  have hphase : Phase t true (some (core y)) q (lifeOf t os ++ runningLife t (core x)) := by
    rcases h with h | h
    · exact h.phase hthreads
    · have hswap := (h.phase hthreads.swap).swap
      rw [runningLife_swap] at hswap
      exact hswap
  rw [Life]
  show Phase t (decide (t < m.d.nextTAddr)) ((update m.d.transports t (some y) t).map core)
    (queueOf t R) (lifeOf t (os ++ m.d.trace))
  rw [decide_eq_true hN, update_self, Option.map_some, hR, hq, List.nil_append, lifeOf_append, hos]
  exact hphase

/-- A thread of another transport makes a step. -/
lemma life_other {y : Atransport} {L : Loop FdeId} {os : List Obs} {n : ℕ} (htu : t ≠ u)
    (hlife : Life t m.d) (hos : ∀ o ∈ os, o.ofThread u)
    (hR : R = m.d.registration ∨ R = m.d.registration ++ [(u, .remove)]) :
    Life t (m.d.threadResult u y L R os n) := by
  refine hlife.congr rfl ?_ ?_ ?_
  · show (update m.d.transports u (some y) t).map core = _
    rw [update_of_ne htu]
  · rcases hR with rfl | rfl
    · rfl
    · show queueOf t (m.d.registration ++ [(u, .remove)]) = _
      rw [queueOf_append, queueOf_cons htu.symm]
      exact List.append_nil _
  · show lifeOf t (os ++ m.d.trace) = _
    rw [lifeOf_append, lifeOf_eq_nil, List.nil_append]
    intro o ho
    have hthread := hos o ho
    cases o <;> simp_all [Obs.ofThread, isLife]
    all_goals exact fun hut => htu hut.symm

/-- The life of a transport goes on as it should under every change. -/
theorem life_effect (he : Effect e D₀ m m') (h : Wf m)
    (hposted : Removes e D₀ t → .posted t ∈ m.d.trace) (hlife : Life t m.d) : Life t m'.d := by
  cases he
  case note o ho =>
    refine hlife.congr rfl rfl rfl (lifeOf_cons ?_)
    cases o <;> first | rfl | exact ho.elim
  case tweak u x x' hx hx' =>
    refine hlife.congr rfl (core_assign hx ?_) rfl rfl
    rw [hx']
    rfl
  case offline u x hx =>
    by_cases htu : t = u
    · subst htu
      by_cases hq : .register ∈ queueOf t m.d.registration
      · obtain ⟨-, hcore, -⟩ := hlife.waiting hx hq
        refine hlife.congr rfl (core_assign hx ?_) rfl rfl
        have hstate : x.connectionState = .offline := congrArg Core.state hcore
        rw [core, core, hstate]
      · exact hlife.state hx hq rfl rfl rfl rfl rfl
    · refine hlife.congr rfl ?_ rfl rfl
      show (update m.d.transports u _ t).map core = _
      rw [update_of_ne htu]
  case banner u x text hx hserve =>
    obtain ⟨st, a, b, c, hbanner⟩ := parseBanner_eq text x
    by_cases htu : t = u
    · subst htu
      obtain ⟨p, hp, -⟩ := hserve
      have hnot := (h.queue.served t p hp).1
      rw [hbanner]
      exact hlife.state hx (fun hq => hnot (mem_queueOf.mp hq)) rfl rfl rfl rfl rfl
    · refine hlife.congr rfl ?_ rfl rfl
      show (update m.d.transports u _ t).map core = _
      rw [update_of_ne htu]
  case register x hx hown =>
    have hfields : core x = ⟨.offline, .done, .done, false⟩ := by
      rw [hx]
      rfl
    by_cases htN : t = m.d.nextTAddr
    · -- nobody has this address yet
      obtain ⟨hq, hos⟩ := hlife.unborn htN.ge
      rw [Life]
      show Phase t (decide (t < m.d.nextTAddr + 1))
        ((update m.d.transports m.d.nextTAddr (some x) t).map core)
        (queueOf t (m.d.registration ++ [(m.d.nextTAddr, .register)])) (lifeOf t (_ :: m.d.trace))
      rw [decide_eq_true (Nat.lt_succ_of_le htN.le), ← htN, update_self, Option.map_some, hfields,
        queueOf_append, hq, List.nil_append, queueOf_cons_self, lifeOf_cons rfl, hos]
      exact .waiting
    · rw [Life]
      show Phase t (decide (t < m.d.nextTAddr + 1))
        ((update m.d.transports m.d.nextTAddr (some x) t).map core)
        (queueOf t (m.d.registration ++ [(m.d.nextTAddr, .register)])) (lifeOf t (_ :: m.d.trace))
      have hborn : decide (t < m.d.nextTAddr + 1) = decide (t < m.d.nextTAddr) := by
        rw [decide_eq_decide]
        exact Nat.lt_succ_iff_lt_or_eq.trans (or_iff_left htN)
      rw [hborn, update_of_ne htN, queueOf_append, queueOf_cons (Ne.symm htN), lifeOf_cons rfl]
      exact (List.append_nil (queueOf t m.d.registration)).symm ▸ hlife
  case enlist u x rest hreg hx hstate =>
    by_cases htu : t = u
    · subst htu
      -- a transport that waits is not one without permission
      obtain ⟨-, hcore, -⟩ := hlife.waiting hx (by rw [hreg, queueOf_cons_self]; simp)
      cases hstate.symm.trans (congrArg Core.state hcore)
    · refine hlife.congr rfl ?_ ?_ (lifeOf_cons (by simp [isLife, Ne.symm htu]))
      · show (update m.d.transports u _ t).map core = _
        rw [update_of_ne htu]
      · rw [hreg, queueOf_cons (Ne.symm htu)]
  case start u x rest n k L M hreg hx hn hk hnk hL hM =>
    by_cases htu : t = u
    · subst htu
      obtain ⟨hN, hcore, hq, hos⟩ := hlife.waiting hx (by rw [hreg, queueOf_cons_self]; simp)
      rw [hreg, queueOf_cons_self, List.cons.injEq] at hq
      have hkicked : x.kicked = false := congrArg Core.kicked hcore
      rw [Life]
      show Phase t (decide (t < m.d.nextTAddr)) ((update m.d.transports t _ t).map core)
        (queueOf t rest) (lifeOf t (.fetched t .register :: m.d.trace))
      rw [decide_eq_true hN, update_self, Option.map_some, hq.2,
        lifeOf_cons_self (by simp [isLife]), hos]
      refine .of_running ⟨.inl (by simp [core, outputStage]), by simp [core, outputStage], ?_⟩ ?_
      · simp [core, outputStage, inputStage]
      · simp [runningLife, core, hkicked]
    · refine hlife.congr rfl ?_ ?_ (lifeOf_cons (by simp [isLife, Ne.symm htu]))
      · show (update m.d.transports u _ t).map core = _
        rw [update_of_ne htu]
      · rw [hreg, queueOf_cons (Ne.symm htu)]
  case unplug u x rest L hreg hx hrem hsame hL own own' =>
    -- the descriptors are none of the life's business
    have hlist : lifeOf t (.shut (.transportFd u) x.fd own ::
        ((if has (m.d.loop.mem (.transport u)).state fdeActive then
          [.shut (.transportSocket u) (m.d.loop.mem (.transport u)).fd own'] else []) ++
          .fetched u .remove :: m.d.trace)) = lifeOf t (.fetched u .remove :: m.d.trace) := by
      rw [lifeOf_cons rfl, lifeOf_append, lifeOf_eq_nil, List.nil_append]
      intro o ho
      split at ho
      · rw [List.mem_singleton] at ho
        rw [ho]
        rfl
      · cases ho
    by_cases htu : t = u
    · subst htu
      obtain ⟨y, hy, hN, hown, hother, hq, hos⟩ :=
        hlife.removing (by rw [hreg, queueOf_cons_self]; simp)
      rw [hreg, queueOf_cons_self, List.cons.injEq] at hq
      rw [Life]
      show Phase t (decide (t < m.d.nextTAddr)) ((m.d.transports t).map core) (queueOf t rest)
        (lifeOf t (.shut _ _ _ :: _))
      rw [decide_eq_true hN, hy, Option.map_some, hq.2, hlist,
        lifeOf_cons_self (by simp [isLife]), hos]
      exact .fetched _ hown hother
    · refine hlife.congr rfl rfl ?_ (hlist.trans (lifeOf_cons (by simp [isLife, Ne.symm htu])))
      rw [hreg, queueOf_cons (Ne.symm htu)]
  case freeTransport u x hidle hx hd hrem hhist hreg hin =>
    by_cases htu : t = u
    · subst htu
      have hq : .remove ∉ queueOf t m.d.registration := fun hq => hreg _ (mem_queueOf.mp hq)
      obtain ⟨hN, hq, hos⟩ := hlife.fetched hx hq (hposted hrem)
      rw [Life]
      show Phase t (decide (t < m.d.nextTAddr)) ((update m.d.transports t none t).map core)
        (queueOf t m.d.registration) (lifeOf t m.d.trace)
      rw [decide_eq_true hN, update_self, hq, hos]
      exact .freed
    · refine hlife.congr rfl ?_ rfl rfl
      show (update m.d.transports u _ t).map core = _
      rw [update_of_ne htu]
  case output u x y L R os n hidle hx hact hstep =>
    obtain ⟨hrun, -, hR⟩ := hstep.running (h.queue.refs u x hx)
    by_cases htu : t = u
    · subst htu
      obtain ⟨-, hthreads, -⟩ := hlife.running hx hrun
      obtain ⟨q, hq, hqueue⟩ := output_threadStep hstep (h.queue.refs t x hx) fun hpc =>
        hthreads.marked (.inl (by simp [core, hpc, outputStage]))
      exact life_thread hx hlife hrun (.inl hq) hqueue
    · exact life_other htu hlife (fun o ho => hstep.ofThread ho) (hR.imp_right And.left)
  case input u x y L R os n hidle hx hstart hstep =>
    obtain ⟨hrun, -, hR⟩ := hstep.running (h.queue.refs u x hx)
    by_cases htu : t = u
    · subst htu
      obtain ⟨-, hthreads, -⟩ := hlife.running hx hrun
      obtain ⟨q, hq, hqueue⟩ := input_threadStep hstep (h.queue.refs t x hx) fun hpc =>
        hthreads.marked (.inr (by simp [core, hpc, inputStage]))
      exact life_thread hx hlife hrun (.inr hq) hqueue
    · exact life_other htu hlife (fun o ho => hstep.ofThread ho) (hR.imp_right And.left)
  case closedAll u x hidle hx hpc =>
    refine hlife.congr rfl (core_assign hx ?_) rfl rfl
    rw [core, core, hpc]
    rfl
  case pair =>
    refine hlife.congr rfl ?_ rfl ?_
    · apply core_assign
      · assumption
      · rfl
    · rw [lifeOf_append, lifeOf_cons rfl, lifeOf_eq_nil, List.nil_append]
      intro o ho
      split at ho
      · rw [List.mem_singleton] at ho
        rw [ho]
        rfl
      · cases ho
  case wrteRead =>
    refine hlife.congr rfl ?_ rfl ((lifeOf_cons rfl).trans (lifeOf_cons rfl))
    apply core_assign
    · exact Moment.SendsTo.alive (by assumption)
    · rfl
  all_goals
    refine hlife.congr rfl ?_ rfl ?_
    · first
      | rfl
      | apply core_assign
        · first
          | assumption
          | exact Moment.SendsTo.alive (by assumption)
        · rfl
    · rfl

end Changes

/-! ## Runs -/

/-- A transport queued for its removal at the beginning of a step stays posted. -/
lemma Life.posted_of_removes {e : Event} {D : Daemon} {m : Moment} {t : TAddr} (h : Life t D)
    (hpath : ReflTransGen (Effect e D) { d := D } m) (hrem : Removes e D t) :
    .posted t ∈ m.d.trace := by
  obtain ⟨ev, rs, rest, -, -, hreg⟩ := hrem
  obtain ⟨x, -, -, -, -, -, hos⟩ := h.removing (by rw [hreg, queueOf_cons_self]; simp)
  have hmem : .posted t ∈ lifeOf t D.trace := by
    rw [hos]
    simp
  exact (trace_of_path hpath).subset (List.mem_filter.mp hmem).1

lemma life_kept (t : TAddr) : Kept (fun _ _ => True) fun m => Life t m.d := by
  intro e D m m' _ _ hinv hpath hwf hlife he
  exact life_effect he hwf (hinv.posted_of_removes hpath) hlife

/-- Every transport goes through the phases of its life. -/
theorem life_of_reachable {D : Daemon} (h : Reachable D) (t : TAddr) : Life t D := by
  refine (life_kept t).reachable (fun config fds inUse D hmain => ?_) h
  obtain ⟨L, O, I, rfl⟩ := adbMain_eq hmain
  rw [Life, decide_eq_false (Nat.not_lt_zero t)]
  exact .unborn

/-! ## The teardown happens once -/

/-- The whole life of a transport, newest first. -/
def fullLife (t : TAddr) : List Obs :=
  [.fetched t .remove, .posted t, .close t, .kick t, .fetched t .register]

/-- Both threads of `t` have ended, whether or not it has been freed since. -/
def Ended (t : TAddr) (D : Daemon) : Prop :=
  .fetched t .register ∈ D.trace ∧
    ∀ x, D.transports t = some x → x.output = .done ∧ x.input = .done

/-- The teardown of `t`, as far as it has come in the state `D`. -/
structure TornDownOnce (t : TAddr) (D : Daemon) : Prop where
  kick_once : D.trace.count (.kick t) ≤ 1
  close_once : D.trace.count (.close t) ≤ 1
  posted_once : D.trace.count (.posted t) ≤ 1
  /-- `t->close` is called after `t->kick` has returned. -/
  kick_first : After (.close t) (.kick t ∈ ·) D.trace
  /-- The removal message is the last thing the threads do. -/
  close_first : After (.posted t) (.close t ∈ ·) D.trace
  last : .posted t ∈ D.trace → ∀ io, D.step ⟨.output t, io⟩ = .error .disabled ∧
    D.step ⟨.input t, io⟩ = .error .disabled
  /-- The main loop reads it after the message that registered `t`. -/
  registered_first : After (.fetched t .remove) (.fetched t .register ∈ ·) D.trace
  posted_first : After (.fetched t .remove) (.posted t ∈ ·) D.trace
  /-- Nothing of it is left out. -/
  complete : Ended t D → D.trace.count (.kick t) = 1 ∧ D.trace.count (.close t) = 1 ∧
    D.trace.count (.posted t) = 1

section Once

variable {t : TAddr} {D : Daemon} {o : Obs}

/-- The life so far is the beginning of a full life. -/
lemma Life.suffix (h : Life t D) : lifeOf t D.trace <:+ fullLife t := by
  rw [Life] at h
  generalize decide (t < D.nextTAddr) = b at h
  generalize queueOf t D.registration = q at h
  generalize lifeOf t D.trace = l at h ⊢
  generalize (D.transports t).map core = c at h
  cases h with
  | unborn => exact List.nil_suffix
  | waiting => exact List.nil_suffix
  | running c =>
    rw [runningLife]
    split
    · exact List.suffix_append [Obs.fetched t .remove, .posted t, .close t] _
    · exact List.suffix_append [Obs.fetched t .remove, .posted t, .close t, .kick t] _
  | posted => exact List.suffix_cons ..
  | fetched => exact List.suffix_rfl
  | freed => exact List.suffix_rfl

lemma count_lifeOf (h : isLife t o = true) : D.trace.count o = (lifeOf t D.trace).count o :=
  (List.count_filter h).symm

lemma Life.count_le (hlife : Life t D) (h : isLife t o = true) : D.trace.count o ≤ 1 := by
  have hnodup : (fullLife t).Nodup := by simp [fullLife]
  rw [count_lifeOf h]
  exact List.nodup_iff_count.mp (hlife.suffix.sublist.nodup hnodup) o

lemma Life.after {y : Obs} (hlife : Life t D) (ho : isLife t o = true)
    (h : After o (y ∈ ·) (fullLife t)) : After o (y ∈ ·) D.trace :=
  (h.of_suffix hlife.suffix).of_filter ho

/-- A transport that has been posted has no thread any more. -/
lemma Life.stages_of_posted {x : Atransport} (hlife : Life t D) (hx : D.transports t = some x)
    (h : .posted t ∈ D.trace) : x.output = .done ∧ x.input = .done := by
  by_cases hrun : x.running = 0
  · obtain ⟨hout, hin⟩ := stages_of_running hrun
    exact ⟨outputStage_eq_done.mp hout, inputStage_eq_done.mp hin⟩
  · exfalso
    obtain ⟨-, -, -, hos⟩ := hlife.running hx hrun
    have hmem : .posted t ∈ lifeOf t D.trace := List.mem_filter.mpr ⟨h, by simp [isLife]⟩
    rw [hos, runningLife] at hmem
    split at hmem <;> simp at hmem

lemma outputThread_done {x : Atransport} (hx : D.transports t = some x) (hpc : x.output = .done)
    (io : Io) : D.step ⟨.output t, io⟩ = .error .disabled := by
  rw [Daemon.step, act]
  simp only
  split
  · rw [outputThread, derefT_bind (D := { D with io := io }) hx]
    simp only [hpc]
  · rfl

lemma inputThread_done {x : Atransport} (hx : D.transports t = some x) (hpc : x.input = .done)
    (io : Io) : D.step ⟨.input t, io⟩ = .error .disabled := by
  rw [Daemon.step, act]
  simp only
  split
  · rw [inputThread, derefT_bind (D := { D with io := io }) hx]
    simp only [hpc]
  · rfl

/-- When both threads have ended, the removal has been posted. -/
lemma Life.posted_of_ended (hlife : Life t D) (h : Ended t D) : .posted t ∈ D.trace := by
  obtain ⟨hreg, hdone⟩ := h
  suffices hmem : .posted t ∈ lifeOf t D.trace from (List.mem_filter.mp hmem).1
  have hreg' : .fetched t .register ∈ lifeOf t D.trace :=
    List.mem_filter.mpr ⟨hreg, by simp [isLife]⟩
  have hstages : ∀ c, (D.transports t).map core = some c → c.own = .done ∧ c.other = .done := by
    intro c hc
    obtain ⟨x, hx, rfl⟩ := Option.map_eq_some_iff.mp hc
    obtain ⟨hout, hin⟩ := hdone x hx
    exact ⟨outputStage_eq_done.mpr hout, inputStage_eq_done.mpr hin⟩
  rw [Life] at hlife
  generalize decide (t < D.nextTAddr) = b at hlife
  generalize queueOf t D.registration = q at hlife
  generalize lifeOf t D.trace = l at hlife hreg' ⊢
  generalize (D.transports t).map core = o at hlife hstages
  cases hlife with
  | unborn => cases hreg'
  | waiting => cases hreg'
  | running c h =>
    obtain ⟨hown, hother⟩ := hstages c rfl
    rcases h.running with hno | hno
    · exact absurd hown hno
    · exact absurd hother hno
  | _ => simp

/-- Whatever the threads and the main loop do, and in whatever order, the teardown of a transport
happens once. -/
theorem torn_down_once (h : Reachable D) (t : TAddr) : TornDownOnce t D := by
  have hlife := life_of_reachable h t
  have hle : ∀ o, isLife t o = true → D.trace.count o ≤ 1 := fun o ho => hlife.count_le ho
  refine ⟨hle _ (by simp [isLife]), hle _ (by simp [isLife]), hle _ (by simp [isLife]),
    hlife.after (by simp [isLife]) ?_, hlife.after (by simp [isLife]) ?_, ?_,
    hlife.after (by simp [isLife]) ?_, hlife.after (by simp [isLife]) ?_, ?_⟩
  · simp [fullLife, after_cons, after_nil]
  · simp [fullLife, after_cons, after_nil]
  · intro hposted io
    cases hx : D.transports t with
    | none =>
      have hno : ¬(({ D with io := io } : Daemon).transports t).isSome := by
        rw [hx]
        decide
      rw [Daemon.step, Daemon.step, act, act]
      exact ⟨if_neg hno, if_neg hno⟩
    | some x =>
      obtain ⟨hout, hin⟩ := hlife.stages_of_posted hx hposted
      exact ⟨outputThread_done hx hout io, inputThread_done hx hin io⟩
  · simp [fullLife, after_cons, after_nil]
  · simp [fullLife, after_cons, after_nil]
  · intro hended
    have hposted := hlife.posted_of_ended hended
    have hclose : .close t ∈ D.trace := by
      obtain ⟨new, old, heq⟩ := List.append_of_mem hposted
      have := (hlife.after (o := .posted t) (y := .close t) (by simp [isLife])
        (by simp [fullLife, after_cons, after_nil])) new old heq
      rw [heq]
      exact List.mem_append_right _ (List.mem_cons_of_mem _ this)
    have hkick : .kick t ∈ D.trace := by
      obtain ⟨new, old, heq⟩ := List.append_of_mem hclose
      have := (hlife.after (o := .close t) (y := .kick t) (by simp [isLife])
        (by simp [fullLife, after_cons, after_nil])) new old heq
      rw [heq]
      exact List.mem_append_right _ (List.mem_cons_of_mem _ this)
    have hone : ∀ o, isLife t o = true → o ∈ D.trace → D.trace.count o = 1 := fun o ho hmem =>
      le_antisymm (hle o ho) (List.count_pos_iff.mpr hmem)
    exact ⟨hone _ (by simp [isLife]) hkick, hone _ (by simp [isLife]) hclose,
      hone _ (by simp [isLife]) hposted⟩

/-- A TCP connection that is accepted and at once closed by the other side: every step up to the
removal of its transport.  Between the two closes of its end of the pair, another thread is given
the number. -/
def shortLife : List Event :=
  [⟨.registerSocket [], { fds := [10] }⟩, ⟨.epollWait [(4, ⟨true, false, false⟩)], {}⟩,
    ⟨.dispatch, { fds := [11, 12] }⟩] ++
  List.replicate 7 ⟨.output 0, {}⟩ ++
  [⟨.epollWait [(11, ⟨true, false, false⟩)], {}⟩, ⟨.dispatch, {}⟩,
    ⟨.epollWait [(11, ⟨true, false, false⟩)], {}⟩, ⟨.dispatch, {}⟩] ++
  List.replicate 5 ⟨.input 0, {}⟩ ++
  [⟨.openFd, { fds := [12] }⟩, ⟨.epollWait [(4, ⟨true, false, false⟩)], {}⟩, ⟨.dispatch, {}⟩]

/-- The descriptors of transports come and go. -/
def isDescriptor : Obs → Bool
  | .registered _ _ | .shut _ _ _ => true
  | _ => false

/-- Where `shortLife` leads: the transport is gone, and the history of its descriptors. -/
lemma shortLife_reachable : ∃ D, Reachable D ∧ D.transports 0 = none ∧
    lifeOf 0 D.trace = fullLife 0 ∧
    ∀ o ∈ [Obs.shut (.transportFd 0) 12 false, .shut (.transportSocket 0) 11 true,
      .shut (.transportFd 0) 12 true, .shut (.sfd 0) 10 true, .registered 0 .loc],
      o ∈ D.trace := by
  obtain ⟨D, hD, hshows⟩ := @exists_reachable (Bool × List Obs × List Obs) {}
    [3, 4, 5, 6, 7, 8, 9] (fun _ => false) shortLife
    (fun D => ((D.transports 0).isNone, lifeOf 0 D.trace, D.trace.filter isDescriptor))
    (true, fullLife 0, [.shut (.transportFd 0) 12 false, .shut (.transportSocket 0) 11 true,
      .shut (.transportFd 0) 12 true, .shut (.sfd 0) 10 true, .registered 0 .loc])
    (by decide +kernel)
  simp only [Prod.mk.injEq] at hshows
  obtain ⟨hdead, hlife, hos⟩ := hshows
  refine ⟨D, hD, Option.isNone_iff_eq_none.mp hdead, hlife, fun o ho => ?_⟩
  rw [← hos] at ho
  exact (List.mem_filter.mp ho).1

/-- The theorem at a whole life. -/
theorem torn_down_once_shortLife :
    ∃ D, Reachable D ∧ lifeOf 0 D.trace = fullLife 0 ∧ TornDownOnce 0 D := by
  obtain ⟨D, hD, -, hlife, -⟩ := shortLife_reachable
  exact ⟨D, hD, hlife, torn_down_once hD 0⟩

end Once

end Adbd.Teardown
