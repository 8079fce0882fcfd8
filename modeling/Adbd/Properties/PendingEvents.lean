import Adbd.Framework.Transition
import Adbd.Properties.PendingQueue

/-!
# What `fdevent_set` leaves pending

An `fdevent` that is waiting for its callback may be given a new subscription by the callback of
another.  The events it no longer wants should then go, and the others stay.  The code masks
with `~events` instead of `events`: it drops exactly what is wanted and keeps the rest.

`Harmless` is when the two come to the same, for one call (`set_exact_iff`).  A run whose calls
are all harmless delivers `FDE_READ` and `FDE_WRITE` to subscribers only.
-/

namespace Adbd

open FlagWord Transition

namespace EventLoop

variable {κ : Type} [DecidableEq κ]

open Loop

/-! ## One call -/

/-- Of what was pending at `k`, exactly the events of the new subscription `ev` are left, and
`FDE_ERROR`, which comes unasked; `k` stays on the list if that is something. -/
def Exact (k : κ) (ev : BitVec 16) (E E' : EventLoop κ) : Prop :=
  let wanted := (E.loop.mem k).events &&& ((ev &&& fdeEventMask) ||| fdeError)
  (E'.loop.mem k).events = wanted ∧ (k ∈ E'.loop.listPending ↔ wanted ≠ 0#16)

/-- The subscription stays and covers everything pending, errors aside; or it changes while
nothing but an error is pending, and does not contain `FDE_ERROR`. -/
def Harmless (k : κ) (ev : BitVec 16) (E : EventLoop κ) : Prop :=
  if (E.loop.mem k).state &&& fdeEventMask = ev &&& fdeEventMask then
    (E.loop.mem k).events &&& ~~~((ev &&& fdeEventMask) ||| fdeError) = 0#16
  else (E.loop.mem k).events &&& ((ev &&& fdeEventMask) ||| ~~~fdeError) = 0#16

instance (k : κ) (ev : BitVec 16) (E : EventLoop κ) : Decidable (Harmless k ev E) := by
  unfold Harmless
  infer_instance

omit [DecidableEq κ] in
lemma stopping_ok {α : Type} {x : Except Stop α} {a : α} (h : stopping x = .ok a) : x = .ok a := by
  cases x with
  | error s => cases h
  | ok b =>
    cases h
    rfl

lemma set_loop {k : κ} {ev : BitVec 16} {E E' : EventLoop κ} (h : E.set k ev = .ok E') :
    E.loop.fdeventSet k ev = .ok E'.loop ∧ E'.history = E.history := by
  unfold set at h
  rw [bind_eq_ok_iff] at h
  obtain ⟨L, hL, h⟩ := h
  rw [bind_eq_ok_iff] at h
  obtain ⟨R, -, h⟩ := h
  cases h
  exact ⟨stopping_ok hL, rfl⟩

/-- One `fdevent_set` on a pending `fdevent`. -/
theorem set_exact_iff {k : κ} {ev : BitVec 16} {E E' : EventLoop κ} (hinv : Inv E)
    (h : E.set k ev = .ok E') (hp : E.Pending k) : Exact k ev E E' ↔ Harmless k ev E := by
  have hinv' := (sound_set hinv).2 E' h
  obtain ⟨hL, -⟩ := set_loop h
  -- membership follows from the events
  have hevents : Exact k ev E E' ↔ (E'.loop.mem k).events =
      (E.loop.mem k).events &&& ((ev &&& fdeEventMask) ||| fdeError) := by
    refine ⟨fun hx => hx.1, fun hx => ⟨hx, ?_⟩⟩
    rw [hinv'.queued.flag, hinv'.queued.due, hx]
  rw [hevents, Harmless]
  by_cases hsame : (E.loop.mem k).state &&& fdeEventMask = ev &&& fdeEventMask
  · rw [if_pos hsame, fdeventSet_same hL hsame]
    exact and_eq_self_iff
  · rw [if_neg hsame]
    rcases fdeventSet_pending hL hsame with ⟨hidle, -⟩ | ⟨-, hleft, -, -⟩
    · exact absurd hp (by simp [Pending, hidle])
    · rw [hleft]
      exact and_not_eq_and_or_iff

/-! ## What the callbacks receive -/

/-- The shell-exit handler added `FDE_READ` to `k`, which has not been called or removed since. -/
def Forced (k : κ) : List (Happening κ) → Prop :=
  History.Since (· = .forced k)
    fun x => x = .removed k ∨ ∃ events subscribed direct, x = .called k events subscribed direct

/-- `FDE_READ` and `FDE_WRITE` only go to subscribers, unless the shell-exit handler gave the
former. -/
def Wanted (k : κ) (events subscribed : BitVec 16) (h : List (Happening κ)) : Prop :=
  (has events fdeWrite = true → has subscribed fdeWrite = true) ∧
    (has events fdeRead = true → has subscribed fdeRead = true ∨ Forced k h)

/-- A callback of the loop receives what is wanted at the time of the call. -/
def Subscribed : Happening κ → List (Happening κ) → Prop
  | .called k events subscribed false, h => Wanted k events subscribed h
  | _, _ => True

/-- Every call of `fdevent_set` on a pending `fdevent` in this turn is harmless. -/
def Careful : Turn κ → EventLoop κ → Prop
  | .operate op, E => ∀ k ev, asks op E = some (k, ev) → E.Pending k → Harmless k ev E
  | .subproc fd _ _ _, E => ∀ k, E.loop.fdTable fd = .fde k → E.Pending k →
    Harmless k (((E.loop.mem k).state &&& fdeEventMask) ||| (fdeRead &&& fdeEventMask)) E
  | _, _ => True

/-- What is pending is wanted. -/
structure Clean (E : EventLoop κ) : Prop where
  inv : Inv E
  wanted : ∀ k, Wanted k (E.loop.mem k).events (E.loop.mem k).state E.history
  calls : History.Always Subscribed E.history

omit [DecidableEq κ] in
lemma wanted_zero {k : κ} {s : BitVec 16} {h : List (Happening κ)} : Wanted k 0#16 s h := by
  simp [Wanted]

omit [DecidableEq κ] in
/-- Nothing happened to the `fdevent` but that its subscription was rewritten. -/
lemma Wanted.congr {k : κ} {events s s' : BitVec 16} {h : List (Happening κ)}
    (hw : Wanted k events s h) (hmask : epollMask s' = epollMask s) : Wanted k events s' h := by
  simp only [epollMask, EpollMask.mk.injEq] at hmask
  rw [Wanted, hmask.1, hmask.2.1]
  exact hw

omit [DecidableEq κ] in
lemma Wanted.cons {k : κ} {events s : BitVec 16} {x : Happening κ} {h : List (Happening κ)}
    (hw : Wanted k events s h) (hr : x ≠ .removed k)
    (hc : ∀ e s d, x ≠ .called k e s d) : Wanted k events s (x :: h) := by
  refine ⟨hw.1, fun hread => (hw.2 hread).imp_right fun hf => hf.cons ?_⟩
  rintro (rfl | ⟨e, s, d, rfl⟩)
  · exact hr rfl
  · exact hc e s d rfl

/-- One struct is rewritten, and something happens to its `fdevent`. -/
lemma Clean.update {k : κ} {x : Happening κ} {E E' : EventLoop κ} (h : Clean E) (hinv : Inv E')
    (hhist : E'.history = x :: E.history)
    (hmem : ∀ j, j ≠ k → E'.loop.mem j = E.loop.mem j)
    (hself : Wanted k (E'.loop.mem k).events (E'.loop.mem k).state (x :: E.history))
    (hother : ∀ j, j ≠ k → x ≠ .removed j ∧ ∀ e s d, x ≠ .called j e s d)
    (hcall : Subscribed x E.history) : Clean E' := by
  refine ⟨hinv, ?_, ?_⟩
  · intro j
    rw [hhist]
    by_cases hj : j = k
    · rw [hj]
      exact hself
    · rw [hmem j hj]
      exact (h.wanted j).cons (hother j hj).1 (hother j hj).2
  · rw [hhist]
    exact History.always_cons.mpr ⟨hcall, h.calls⟩

/-- One struct is rewritten and nothing happens. -/
lemma Clean.rewrite {k : κ} {E E' : EventLoop κ} (h : Clean E) (hinv : Inv E')
    (hhist : E'.history = E.history)
    (hmem : ∀ j, j ≠ k → E'.loop.mem j = E.loop.mem j)
    (hself : Wanted k (E'.loop.mem k).events (E'.loop.mem k).state E.history) : Clean E' := by
  refine ⟨hinv, ?_, hhist ▸ h.calls⟩
  intro j
  rw [hhist]
  by_cases hj : j = k
  · rw [hj]
    exact hself
  · rw [hmem j hj]
    exact h.wanted j

/-- A harmless `fdevent_set` leaves nothing pending that is not wanted. -/
lemma clean_set {k : κ} {ev : BitVec 16} {E E' : EventLoop κ} (h : Clean E)
    (hset : E.set k ev = .ok E') (hharm : E.Pending k → Harmless k ev E) : Clean E' := by
  obtain ⟨hL, hhist⟩ := set_loop hset
  refine h.rewrite (k := k) ((sound_set h.inv).2 E' hset) hhist (fdeventSet_spec hL).mem_other ?_
  by_cases hsame : (E.loop.mem k).state &&& fdeEventMask = ev &&& fdeEventMask
  · rw [fdeventSet_same hL hsame]
    exact h.wanted k
  rcases fdeventSet_pending hL hsame with ⟨hidle, hevents, -, -⟩ | ⟨hp, hevents, -, -⟩
  · have hzero : (E.loop.mem k).events = 0#16 := by
      by_contra hne
      exact absurd ((h.inv.queued.due k).mpr hne) (by simp [hidle])
    rw [hevents, hzero]
    exact wanted_zero
  · -- only an error was pending
    have hharm := hharm hp
    rw [Harmless, if_neg hsame] at hharm
    rw [BitVec.and_or_distrib_left, BitVec.or_eq_zero_iff] at hharm
    have hnone : ∀ m, ~~~fdeError &&& m = m → has (E'.loop.mem k).events m = false := by
      intro m hm
      rw [Bool.eq_false_iff, hevents]
      intro hhas
      have hold := has_of_has_and hhas
      rw [← has_and_of_covered hm, hharm.2] at hold
      simp at hold
    rw [Wanted, hnone fdeWrite (by decide), hnone fdeRead (by decide)]
    simp

/-! ## The other operations -/

lemma clean_remove {k : κ} {E E' : EventLoop κ} (h : Clean E) (hrem : E.remove k = .ok E') :
    Clean E' := by
  have hinv := (sound_remove h.inv).2 E' hrem
  unfold remove at hrem
  rw [bind_eq_ok_iff] at hrem
  obtain ⟨R, -, hrem⟩ := hrem
  rw [bind_eq_ok_iff] at hrem
  obtain ⟨L, hL, hrem⟩ := hrem
  cases hrem
  have hspec := fdeventRemove_spec (stopping_ok hL)
  refine h.update hinv rfl hspec.mem_other ?_ (fun j hj => ?_) trivial
  · simp only [record, hspec.mem_self]
    exact wanted_zero
  · simpa using Ne.symm hj

/-- A new struct has no events. -/
lemma clean_installed {k : κ} {f : Fdevent} {T : ℕ → Slot κ} {m : ℕ} {R : Ring.Links κ}
    {E : EventLoop κ} (h : Clean E) (hf : f.events = 0#16)
    (hinv : Inv (record (.installed k)
      { E with
        loop := { E.loop.setMem k f with
          fdTable := T
          fdTableMax := m }
        links := R })) :
    Clean (record (.installed k)
      { E with
        loop := { E.loop.setMem k f with
          fdTable := T
          fdTableMax := m }
        links := R }) := by
  have hself : (E.loop.setMem k f).mem k = f := setMem_mem_self ..
  refine h.update hinv rfl (fun j hj => setMem_mem_of_ne hj ..) ?_ (fun j hj => by simp) trivial
  simp only [record, hself, hf]
  exact wanted_zero

lemma clean_operate {op : Operation κ} {E E' : EventLoop κ} (h : Clean E)
    (hop : E.operate op = .ok E') (hcare : Careful (.operate op) E) : Clean E' := by
  have hinv := (sound_operate h.inv).2 E' hop
  cases op with
  | openFd n =>
    change (stopping (E.loop.openFd n) >>= _) = _ at hop
    rw [bind_eq_ok_iff] at hop
    obtain ⟨L, hL, hop⟩ := hop
    cases hop
    have hmem : L.mem = E.loop.mem := by
      have hL := stopping_ok hL
      unfold openFd at hL
      split at hL
      · cases hL
      · cases hL
        rfl
    exact ⟨hinv, fun k => by simpa [hmem] using h.wanted k, h.calls⟩
  | closeFd n =>
    cases hop
    exact ⟨hinv, h.wanted, h.calls⟩
  | install k n =>
    change E.install k n = _ at hop
    unfold install at hop
    split at hop
    · cases hop
    · rw [bind_eq_ok_iff] at hop
      obtain ⟨L, hL, hop⟩ := hop
      obtain ⟨T, m, rfl, -, -⟩ := fdeventInstall_ok (stopping_ok hL)
      cases hop
      exact clean_installed h rfl hinv
  | create k n =>
    change E.create k n = _ at hop
    unfold create at hop
    split at hop
    · cases hop
    · rw [bind_eq_ok_iff] at hop
      obtain ⟨L, hL, hop⟩ := hop
      obtain ⟨T, m, rfl, -, -⟩ := fdeventCreate_ok (stopping_ok hL)
      cases hop
      exact clean_installed h rfl hinv
  | dontClose k =>
    cases hop
    refine h.rewrite (k := k) hinv rfl (fun j hj => setMem_mem_of_ne hj ..) ?_
    rw [setMem_mem_self]
    apply (h.wanted k).congr
    rw [epollMask, epollMask, has_or, has_or, has_or]
    simp [show has fdeDontClose fdeRead = false by decide,
      show has fdeDontClose fdeWrite = false by decide,
      show has fdeDontClose fdeError = false by decide]
  | set k ev => exact clean_set h hop (hcare k ev rfl)
  | add k ev => exact clean_set h hop (hcare k _ rfl)
  | del k ev => exact clean_set h hop (hcare k _ rfl)
  | remove k => exact clean_remove h hop

/-! ## The loop -/

lemma has_fdeEvents (ev : EpollMask) :
    has (fdeEvents ev) fdeWrite = ev.pollOut ∧ has (fdeEvents ev) fdeRead = ev.pollIn := by
  obtain ⟨i, o, e⟩ := ev
  cases i <;> cases o <;> cases e <;> decide

/-- The kernel reports what its entry asks for, and the entry is the subscription. -/
lemma clean_reportOne {n : ℕ} {k : κ} {ev asked : EpollMask} {E E' : EventLoop κ} (h : Clean E)
    (he : E.loop.interest n = some (asked, k)) (hcan : canReport ev asked = true)
    (hinv : Inv E') (hone : E.reportOne k ev = .ok E') : Clean E' := by
  obtain ⟨f, l, heq, -, hevents, -, hmask, -⟩ := fdeventReport_pending k ev E.loop
  obtain ⟨-, -, rfl⟩ := h.inv.owned.entry n asked k he
  unfold reportOne at hone
  rw [bind_eq_ok_iff, heq] at hone
  obtain ⟨R, -, hone⟩ := hone
  cases hone
  refine h.update hinv rfl (fun j hj => setMem_mem_of_ne hj ..) ?_ (fun j hj => by simp) trivial
  have hself : (E.loop.setMem k f).mem k = f := setMem_mem_self ..
  simp only [record, hself]
  apply Wanted.congr _ hmask
  obtain ⟨hwrite, hread⟩ := (h.wanted k).cons (x := .reported k ev) (by simp) (by simp)
  obtain ⟨hout, hin⟩ := has_fdeEvents ev
  simp only [canReport, epollMask, Bool.and_eq_true, Bool.or_eq_true, Bool.not_eq_true'] at hcan
  rw [Wanted, hevents, has_or, has_or, hout, hin, Bool.or_eq_true, Bool.or_eq_true]
  constructor
  · rintro (hold | hnew)
    · exact hwrite hold
    · exact hcan.2.resolve_left (by simp [hnew])
  · rintro (hold | hnew)
    · exact hread hold
    · exact .inl (hcan.1.resolve_left (by simp [hnew]))

lemma clean_report {batch : List (ℕ × EpollMask)} {E E' : EventLoop κ} (h : Clean E)
    (hu : ∀ k, Uncalled k E.history) (hrep : report batch E = .ok E') : Clean E' := by
  induction batch generalizing E with
  | nil =>
    cases hrep
    exact h
  | cons x batch ih =>
    obtain ⟨n, ev⟩ := x
    rw [report] at hrep
    split at hrep
    · cases hrep
    case h_2 asked k he =>
      split at hrep
      case isTrue hcan =>
        obtain ⟨E₁, hone, hE₁, hhist⟩ :=
          @inv_reportOne κ _ k ev E h.inv (h.inv.owned.entry n asked k he).1 (hu k)
        rw [hone] at hrep
        refine ih (clean_reportOne h he hcan hE₁ hone) (fun j => ?_) hrep
        rw [hhist]
        exact (hu j).cons (by simp)
      case isFalse => cases hrep

lemma clean_wait {batch : List (ℕ × EpollMask)} {E E' : EventLoop κ} (h : Clean E)
    (hwait : E.wait batch = .ok E') : Clean E' := by
  unfold wait at hwait
  rcases dequeue_eq h.inv with ⟨hlist, hdeq⟩ | ⟨k, rest, R, -, -, hdeq⟩
  · rw [hdeq] at hwait
    have hwaited : Clean (record .waited E) := by
      refine ⟨inv_waited h.inv hlist, fun k => ?_, ?_⟩
      · exact (h.wanted k).cons (by simp) (by simp)
      · exact History.always_cons.mpr ⟨trivial, h.calls⟩
    exact clean_report hwaited (fun k => uncalled_waited k E.history) hwait
  · rw [hdeq] at hwait
    cases hwait

/-- The call hands over what is pending, which is wanted. -/
lemma clean_call {E E' : EventLoop κ} (h : Clean E) (hcall : E.call = .ok E') : Clean E' := by
  have hinv := (sound_call h.inv).2 E' hcall
  unfold call at hcall
  rcases dequeue_eq h.inv with ⟨-, hdeq⟩ | ⟨k, rest, R, hlist, hR, hdeq⟩
  · rw [hdeq] at hcall
    cases hcall
  rw [hdeq] at hcall
  let E₁ : EventLoop κ := { E with loop := { E.loop with listPending := rest }, links := R }
  have hp : E₁.Pending k := (h.inv.queued.flag k).mp (hlist ▸ List.mem_cons_self ..)
  change Except.ok (E₁.callFdfunc k false) = _ at hcall
  rw [callFdfunc_pending hp] at hcall
  cases hcall
  refine h.update hinv rfl (fun j hj => setMem_mem_of_ne hj ..) ?_ (fun j hj => ?_) ?_
  · simp only [record, setMem_mem_self]
    exact wanted_zero
  · simp [Ne.symm hj]
  · apply (h.wanted k).congr
    exact epollMask_congr (by rw [BitVec.and_assoc, BitVec.and_self])

/-- What the shell-exit handler adds is recorded as forced, or handed over at once. -/
lemma clean_forceEof {k : κ} {rcount : ℕ} {E : EventLoop κ} (h : Clean E)
    (hk : E.loop.Installed k) : Clean (E.forceEof k rcount) := by
  have hinv := @inv_forceEof κ _ k rcount E h.inv hk
  have h₁ : Clean (E.eofForced k) := by
    refine h.rewrite (k := k) (inv_eofForced h.inv) rfl (fun j hj => setMem_mem_of_ne hj ..) ?_
    simp only [eofForced, setMem_mem_self]
    exact h.wanted k
  rcases forceEof_cases (k := k) h.inv rcount with heq | ⟨-, heq⟩ | ⟨-, e, s, heq⟩
  · rw [heq]
    exact h₁
  · rw [heq] at hinv ⊢
    refine h₁.update hinv rfl (fun j hj => setMem_mem_of_ne hj ..) ?_ (fun j _ => by simp) trivial
    simp only [record, setMem_mem_self]
    rw [Wanted, has_or]
    refine ⟨?_, fun _ => .inr (.here rfl)⟩
    simpa [show has fdeRead fdeWrite = false by decide] using (h₁.wanted k).1
  · rw [heq] at hinv ⊢
    refine h₁.update hinv rfl (fun j hj => setMem_mem_of_ne hj ..) ?_
      (fun j hj => by simp [Ne.symm hj]) trivial
    simp only [record, setMem_mem_self]
    exact wanted_zero

lemma clean_subproc {fd rcount : ℕ} {ev : BitVec 16} {answer : Option ℕ} {E E' : EventLoop κ}
    (h : Clean E) (hsub : E.subproc fd ev answer rcount = .ok E')
    (hcare : Careful (.subproc fd ev answer rcount) E) : Clean E' := by
  unfold subproc at hsub
  split at hsub
  · cases hsub
  split at hsub
  · cases hsub
  · cases hsub
  case h_3 k hslot =>
    rw [bind_eq_ok_iff] at hsub
    obtain ⟨E₁, hadd, hsub⟩ := hsub
    have h₁ := clean_set h hadd (hcare k hslot)
    split at hsub
    · split at hsub
      · cases hsub
      · unfold childExited at hsub
        split at hsub
        · cases hsub
          exact h₁
        split at hsub
        · cases hsub
          exact h₁
        · cases hsub
        case h_3 j hslot =>
          split at hsub
          · cases hsub
            exact h₁
          · cases hsub
            exact clean_forceEof h₁ (h₁.inv.owned.slot _ j hslot).1
    · cases hsub
      exact h₁

theorem clean_step {t : Turn κ} {E E' : EventLoop κ} (h : Clean E) (hcare : Careful t E)
    (hstep : step t E = .ok E') : Clean E' := by
  cases t with
  | operate op => exact clean_operate h hstep hcare
  | wait batch => exact clean_wait h hstep
  | call => exact clean_call h hstep
  | subproc fd ev answer rcount => exact clean_subproc h hstep hcare

/-! ## Every run -/

omit [DecidableEq κ] in
lemma clean_initial (garbage inUse : ℕ → Bool) : Clean (initial garbage inUse : EventLoop κ) :=
  ⟨inv_initial garbage inUse, fun _ => wanted_zero, History.always_nil⟩

/-- In every state a run of the loop reaches, `fdevent_set`, `fdevent_add` and `fdevent_del` on
a pending `fdevent` drop exactly the unwanted events if and only if the call is harmless; and in
a run all of whose calls are, every callback of the loop receives what its `fdevent` subscribes
to. -/
theorem unwanted_dropped_iff (garbage inUse : ℕ → Bool) (turns : List (Turn κ)) (E : EventLoop κ)
    (hrun : run step turns (initial garbage inUse) = .ok E) :
    (∀ op k ev E', asks op E = some (k, ev) → E.operate op = .ok E' → E.Pending k →
      (Exact k ev E E' ↔ Harmless k ev E)) ∧
    (Along step Careful turns (initial garbage inUse) → History.Always Subscribed E.history) := by
  constructor
  · intro op k ev E' hasks hop hp
    have hinv : Inv E := (run_inv (inv_initial garbage inUse)).2 E hrun
    cases op with
    | set j e =>
      cases hasks
      exact set_exact_iff hinv hop hp
    | add j e =>
      cases hasks
      exact set_exact_iff hinv hop hp
    | del j e =>
      cases hasks
      exact set_exact_iff hinv hop hp
    | openFd | closeFd | install | create | dontClose | remove => cases hasks
  · intro hcare
    exact (run_invariant (fun t E E' h hC hs => clean_step h hC hs) (clean_initial garbage inUse)
      hcare hrun).calls

/-! ## Two runs -/

/-- `Careful`, as far as a run without the shell-exit handler needs it. -/
def careful : Turn κ → EventLoop κ → Bool
  | .operate op, E =>
    (asks op E).all fun (k, ev) => !decide (E.Pending k) || decide (Harmless k ev E)
  | .subproc .., _ => false
  | _, _ => true

omit [DecidableEq κ] in
lemma careful_sound {t : Turn κ} {E : EventLoop κ} (h : careful t E = true) : Careful t E := by
  cases t with
  | operate op =>
    intro k ev hasks hp
    simpa [careful, hasks, hp] using h
  | wait | call => trivial
  | subproc => cases h

/-- Two `fdevent`s, on descriptors 3 and 4, both reported in one batch; the callback of the first
is being called. -/
def twoReported : List (Turn Bool) :=
  [.operate (.openFd 3), .operate (.openFd 4),
    .operate (.install false 3), .operate (.install true 4),
    .operate (.set false fdeRead), .operate (.set true (fdeRead ||| fdeWrite)),
    .wait [(3, ⟨true, false, false⟩), (4, ⟨true, true, false⟩)], .call]

def nothingOpen : EventLoop Bool := initial (fun _ => false) fun _ => false

/-- As long as nobody changes a subscription, the second is called with what it wants. -/
theorem unwanted_dropped_two : ∃ E, run step (twoReported ++ [.call]) nothingOpen = .ok E ∧
    .called true (fdeRead ||| fdeWrite) (fdeRead ||| fdeWrite) false ∈ E.history ∧
    History.Always Subscribed E.history := by
  obtain ⟨E, hwalk, hlast⟩ : ∃ E, walk step careful (twoReported ++ [.call]) nothingOpen = some E ∧
      .called true (fdeRead ||| fdeWrite) (fdeRead ||| fdeWrite) false ∈ E.history := by
    have h : (walk step careful (twoReported ++ [.call]) nothingOpen).any (fun E =>
        .called true (fdeRead ||| fdeWrite) (fdeRead ||| fdeWrite) false ∈ E.history) = true := by
      decide +kernel
    rw [Option.any_eq_true] at h
    obtain ⟨E, hE, h⟩ := h
    exact ⟨E, hE, of_decide_eq_true h⟩
  obtain ⟨hrun, halong⟩ := of_walk hwalk
  have hcare := Along.mono (fun t E h => careful_sound h) halong
  exact ⟨E, hrun, hlast, (unwanted_dropped_iff _ _ _ E hrun).2 hcare⟩

/-- The first callback makes the second `fdevent` stop reading.  `FDE_WRITE`, which it still
wants, is dropped, and its callback gets `FDE_READ`, to which it does not subscribe. -/
theorem unwanted_delivered : ∃ E E' E'', run step twoReported nothingOpen = .ok E ∧
    E.operate (.del true fdeRead) = .ok E' ∧ E.Pending true ∧ ¬Exact true fdeWrite E E' ∧
    E'.call = .ok E'' ∧ .called true fdeRead fdeWrite false ∈ E''.history := by
  have h : (run step twoReported nothingOpen).toOption.any (fun E =>
      decide (E.Pending true) && (E.operate (.del true fdeRead)).toOption.any fun E' =>
        (E'.loop.mem true).events != (E.loop.mem true).events &&&
            ((fdeWrite &&& fdeEventMask) ||| fdeError) &&
          E'.call.toOption.any fun E'' =>
            .called true fdeRead fdeWrite false ∈ E''.history) = true := by
    decide +kernel
  obtain ⟨E, hE, h⟩ := of_any h
  rw [Bool.and_eq_true, decide_eq_true_iff] at h
  obtain ⟨E', hE', h'⟩ := of_any h.2
  rw [Bool.and_eq_true, bne_iff_ne] at h'
  obtain ⟨E'', hE'', h''⟩ := of_any h'.2
  exact ⟨E, E', E'', hE, hE', h.1, fun hx => h'.1 hx.1, hE'', of_decide_eq_true h''⟩

end EventLoop

end Adbd
