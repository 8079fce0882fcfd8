import Adbd.Effects.Packet

/-!
# Transports and their threads, as changes

Registration, removal and the steps of `output_thread` and `input_thread`, each as a sequence of
elementary changes.

A thread of a transport that is alive never fails: `Runs` says that its step ends with the
transport alive, or was not possible, or came upon a pair whose descriptor is no longer the
transport's.  So one change per thread is enough, which the relations of the thread's cases
describe.  The one exception is the `input_thread` that closes all sockets; that is explained like
the other ways of closing sockets.

Starting a transport opens its pair, installs one end of it and starts both threads.  Removing one
takes its `fdevent` out of the loop, which closes that end, and closes the number of the other end
as well, though the threads have closed it before; then its streams are disconnected and it is
freed.
-/

namespace Adbd

open Function FlagWord Transition Relation Daemon

/-! ## Threads do not fail -/

/-- The computation ends with `t` alive, was not possible, or came upon a descriptor that is no
longer the transport's. -/
def Runs {β : Type} (t : TAddr) (d : β → Daemon) (z : Except Stop β) : Prop :=
  (∃ b y, z = .ok b ∧ (d b).transports t = some y) ∨ z = .error .disabled ∨
    ∃ n, z = .error (.strayDescriptor n)

section Threads

variable {β γ : Type} {t : TAddr} {x : Atransport} {D : Daemon} {d : β → Daemon}
  {d' : γ → Daemon}

lemma Runs.bind {z : Except Stop β} {f : β → Except Stop γ} (hz : Runs t d z)
    (hf : ∀ b y, (d b).transports t = some y → Runs t d' (f b)) : Runs t d' (z >>= f) := by
  rcases hz with ⟨b, y, rfl, hy⟩ | rfl | ⟨n, rfl⟩
  · exact hf b y hy
  · exact .inr (.inl rfl)
  · exact .inr (.inr ⟨n, rfl⟩)

lemma Runs.pure {b : β} (hx : (d b).transports t = some x) :
    Runs t d (Except.ok b : Except Stop β) :=
  .inl ⟨b, x, rfl, hx⟩

lemma Runs.error {z : Except Stop β} {r : Stop} (h : Runs t d z) (hz : z = .error r)
    (m : Moment) : StopsAt m r := by
  subst hz
  rcases h with ⟨b, y, hb, -⟩ | h | ⟨n, h⟩
  · cases hb
  · cases h
    trivial
  · cases h
    trivial

lemma modifyT_runs (hx : D.transports t = some x) (f : Atransport → Atransport) :
    Runs t id (D.modifyT t f) := by
  rw [modifyT_eq hx]
  exact .pure (setTransport_self ..)

lemma kick_runs (hx : D.transports t = some x) : Runs t id (D.kick t) := by
  rw [kick, derefT_bind hx]
  simp only
  split
  · exact .pure (update_self ..)
  · exact .pure hx

lemma closeTransport_runs (hx : D.transports t = some x) : Runs t id (D.closeTransport t) := by
  rw [closeTransport, derefT_bind hx]
  simp only
  split
  · exact .pure hx
  · exact .pure hx

lemma transportUnref_runs (hx : D.transports t = some x) : Runs t id (D.transportUnref t) := by
  rw [transportUnref, derefT_bind hx]
  simp only
  split
  case isTrue =>
    refine Runs.bind (d := id) ?_ fun D' y hy => ?_
    · split
      · exact .pure (setTransport_self ..)
      · exact Runs.bind (modifyT_runs (setTransport_self ..) _) fun D' y hy => kick_runs hy
    · refine Runs.bind (closeTransport_runs hy) fun D'' z hz => ?_
      exact .pure hz
  case isFalse => exact .pure (setTransport_self ..)

lemma writeToMain_runs (hx : D.transports t = some x) (p : Apacket) :
    Runs t Prod.snd (D.writeToMain t p) := by
  rw [writeToMain, derefT_bind hx]
  split
  · split
    · exact .pure (setTransport_self ..)
    · exact .pure hx
  split
  · exact .inr (.inr ⟨_, rfl⟩)
  · exact .pure hx

lemma inputPacket_runs (hx : D.transports t = some x) (p : Apacket) :
    Runs t id (D.inputPacket t p) := by
  rw [inputPacket, derefT_bind hx]
  split
  · split
    · exact modifyT_runs (by exact hx) _
    split
    · exact .pure (setTransport_self ..)
    · exact .pure hx
  split
  · exact .pure hx
  · exact .pure hx

/-- A step of `output_thread` of a live transport. -/
lemma outputThread_runs (hx : D.transports t = some x) : Runs t id (D.outputThread t) := by
  rw [outputThread, derefT_bind hx]
  simp only [getApacket]
  cases x.output with
  | start =>
    exact Runs.bind (writeToMain_runs (setTransport_self ..) _) fun r y hy => modifyT_runs hy _
  | reading =>
    simp only
    split
    · exact modifyT_runs (by exact hx) _
    split
    · exact .inr (.inl rfl)
    · exact Runs.bind (writeToMain_runs (by exact hx) _) fun r y hy => modifyT_runs hy _
  | sendSync => exact Runs.bind (writeToMain_runs (by exact hx) _) fun r y hy => modifyT_runs hy _
  | kickTest => exact modifyT_runs hx _
  | kickLock =>
    simp only
    split
    · exact modifyT_runs hx _
    · exact Runs.bind (modifyT_runs hx _) fun D' y hy => modifyT_runs hy _
  | kickCall => exact Runs.bind (kick_runs hx) fun D' y hy => modifyT_runs hy _
  | unref => exact Runs.bind (modifyT_runs hx _) fun D' y hy => transportUnref_runs hy
  | done => exact .inr (.inl rfl)

/-- A step of `input_thread` of a live transport that does not close sockets. -/
lemma inputThread_runs (hx : D.transports t = some x) (hpc : x.input ≠ .closeAll) :
    Runs t id (D.inputThread t) := by
  rw [inputThread, derefT_bind hx]
  cases hin : x.input with
  | reading =>
    simp only
    split
    · split
      · exact inputPacket_runs (setTransport_self ..) _
      split
      · exact .inr (.inl rfl)
      · exact modifyT_runs hx _
    split
    · exact .inr (.inr ⟨_, rfl⟩)
    · exact modifyT_runs hx _
  | closeAll => exact absurd hin hpc
  | kickTest => exact modifyT_runs hx _
  | kickLock =>
    simp only
    split
    · exact modifyT_runs hx _
    · exact Runs.bind (modifyT_runs hx _) fun D' y hy => modifyT_runs hy _
  | kickCall => exact Runs.bind (kick_runs hx) fun D' y hy => modifyT_runs hy _
  | unref => exact Runs.bind (modifyT_runs hx _) fun D' y hy => transportUnref_runs hy
  | done => exact .inr (.inl rfl)

end Threads

section Transports

variable {e : Event} {D₀ : Daemon} {m : Moment} {t : TAddr} {x : Atransport}

/-- A step of `output_thread`. -/
lemma outputThread_explains (hidle : m.handling = none) (hx : m.d.transports t = some x)
    (hact : e.action = .output t) (hio : m.d.io = e.io) :
    Explains e D₀ m.to m (m.d.outputThread t) fun _ => True := by
  cases hres : m.d.outputThread t with
  | error r =>
    exact ⟨m, .refl, (outputThread_runs hx).error hres m⟩
  | ok D =>
    obtain ⟨y, L, R, os, n, hstep, rfl⟩ := outputThread_ok hx hres
    rw [hio] at hstep
    exact .ok (.single (.output m t x y L R os n hidle hx hact hstep)) trivial

/-- A step of `input_thread`. -/
lemma inputThread_explains (h : Wf m) (hX : m.orphans = ∅) (hidle : m.handling = none)
    (hx : m.d.transports t = some x) (hact : e.action = .input t)
    (hsock : m.d.sockets = D₀.sockets) (hlist : m.d.localSocketList = D₀.localSocketList)
    (hx₀ : D₀.transports t = some x) (hloop : m.d.loop = D₀.loop) (hown : m.d.owner = D₀.owner) :
    Explains e D₀ m.to m (m.d.inputThread t) fun _ => True := by
  by_cases hpc : x.input = .closeAll
  · rw [inputThread, derefT_bind hx, hpc]
    simp only
    rw [closeAllSockets]
    refine Explained.bind (closeAllFuel_explains hact hx₀ hpc _ h hX (Nat.lt_succ_self _)
      (fun b q hb _ => hsock ▸ hb) fun b hb => hlist ▸ hb) fun D _ hD => ?_
    obtain ⟨y, hy, hstrip⟩ := hD.transport_some hx
    have hypc : y.input = .closeAll := by
      have := congrArg Atransport.input hstrip
      exact this.trans hpc
    rw [setInput, modifyT_eq hy]
    exact .ok (.single (.closedAll (m.to D) t y hidle hy hypc)) trivial
  · cases hres : m.d.inputThread t with
    | error r =>
      exact ⟨m, .refl, (inputThread_runs hx hpc).error hres m⟩
    | ok D =>
      obtain ⟨y, L, R, os, hstep, rfl⟩ := inputThread_ok hx hpc hres
      exact .ok (.single (.input m t x y L R os _ hidle hx ⟨hx₀, hloop, hown⟩ hstep)) trivial

/-! ## Registration -/

/-- The state after a descriptor was opened for `d`. -/
def Daemon.opened (n : ℕ) (d : Desc) (fds : List ℕ) (D : Daemon) : Daemon :=
  { D with
    loop := { D.loop with inUse := update D.loop.inUse n true }
    owner := update D.owner n (some d)
    io := { D.io with fds := fds } }

lemma path_opened {n : ℕ} {d : Desc} (fds : List ℕ) (hn : m.d.loop.inUse n = false) :
    ReflTransGen (Effect e D₀) m (m.to (m.d.opened n d fds)) :=
  (ReflTransGen.single (.opened m n d hn)).tail (.env _ { m.d.io with fds := fds } m.d.nextPacket)

/-- A system call that opens a descriptor fails, returns a free one, or cannot happen. -/
lemma takeFd_cases (d : Desc) (D : Daemon) :
    D.takeFd d = .ok (none, D) ∨
    (∃ n fds, D.loop.inUse n = false ∧ D.takeFd d = .ok (some n, D.opened n d fds)) ∨
    D.takeFd d = .error .disabled := by
  rw [takeFd]
  cases D.io.fds with
  | nil => exact .inl rfl
  | cons n fds =>
    simp only [Loop.openFd]
    split
    · exact .inr (.inr rfl)
    case isFalse hfree =>
      rw [Bool.not_eq_true] at hfree
      exact .inr (.inl ⟨n, fds, hfree, rfl⟩)

/-- The state after the two ends of the pair of `t` were opened. -/
def Daemon.paired2 (t : TAddr) (n k : ℕ) (fds : List ℕ) (D : Daemon) : Daemon :=
  { D with
    loop := { D.loop with inUse := update (update D.loop.inUse n true) k true }
    owner := update (update D.owner n (some (.transportSocket t))) k (some (.transportFd t))
    io := { D.io with fds := fds } }

lemma transportSocketpair_cases (t : TAddr) (D : Daemon) :
    (∃ n k fds, D.loop.inUse n = false ∧ D.loop.inUse k = false ∧ n ≠ k ∧
      D.transportSocketpair t = .ok ((n, k), D.paired2 t n k fds)) ∨
    D.transportSocketpair t = .error .disabled ∨
    D.transportSocketpair t = .error .fatalErrno := by
  rw [transportSocketpair]
  rcases takeFd_cases (.transportSocket t) D with h | ⟨n, fds, hn, h⟩ | h
  · rw [h]
    show _ ∨ (D.takeFd (.transportFd t) >>= _) = _ ∨ (D.takeFd (.transportFd t) >>= _) = _
    rcases takeFd_cases (.transportFd t) D with h' | ⟨k, fds', -, h'⟩ | h'
    all_goals rw [h']
    · exact .inr (.inr rfl)
    · exact .inr (.inr rfl)
    · exact .inr (.inl rfl)
  · rw [h]
    show _ ∨ ((D.opened n _ fds).takeFd (.transportFd t) >>= _) = _ ∨
      ((D.opened n _ fds).takeFd (.transportFd t) >>= _) = _
    rcases takeFd_cases (.transportFd t) (D.opened n (.transportSocket t) fds) with
      h' | ⟨k, fds', hk, h'⟩ | h'
    all_goals rw [h']
    · exact .inr (.inr rfl)
    · have hne : k ≠ n := by
        rintro rfl
        simp [Daemon.opened] at hk
      rw [Daemon.opened] at hk
      simp only [update_of_ne hne] at hk
      refine .inl ⟨n, k, fds', hn, hk, hne.symm, ?_⟩
      show ((D.opened n _ fds).takeFd (.transportFd t) >>= _) = _
      rw [h']
      rfl
    · exact .inr (.inl rfl)
  · rw [h]
    exact .inr (.inl rfl)

/-- The head of the registration queue is alive, and queued once. -/
lemma Wf.queued_head {a : RegAction} {rest : List (TAddr × RegAction)} (h : Wf m)
    (hreg : m.d.registration = (t, a) :: rest) :
    (∃ x, m.d.transports t = some x) ∧ ∀ b, (t, b) ∉ rest := by
  obtain ⟨x, hx, -⟩ := h.queue.queued t a (by rw [hreg]; exact List.mem_cons_self)
  refine ⟨⟨x, hx⟩, fun b hb => ?_⟩
  have honce := h.queue.once
  rw [hreg, List.map_cons, List.nodup_cons] at honce
  exact honce.1 (List.mem_map.mpr ⟨(t, b), hb, rfl⟩)

/-- `transport_registration_func`, action 1. -/
lemma startTransport_explains {rest : List (TAddr × RegAction)} (h : Wf m)
    (hreg : m.d.registration = (t, .register) :: rest) :
    Explains e D₀ m.to m
      (({ m.d with registration := rest }.emit (.fetched t .register)).startTransport t)
      fun _ => True := by
  obtain ⟨⟨x, hx⟩, -⟩ := h.queued_head hreg
  set D₁ : Daemon := { m.d with registration := rest }.emit (.fetched t .register) with hD₁
  have hx₁ : D₁.transports t = some x := hx
  rw [startTransport, derefT_bind hx₁]
  split
  case isTrue =>
    rcases transportSocketpair_cases t D₁ with ⟨n, k, fds, hn, hk, hnk, hpair⟩ | hpair | hpair
    all_goals rw [hpair]
    · set y : Atransport := { x with
        refCount := 2
        transportSocket := n
        fd := k
        input := .reading
        output := .start } with hy
      set D₂ : Daemon := (D₁.paired2 t n k fds).setTransport t y with hD₂
      show Explains e D₀ m.to m ((D₂.onLoop (Loop.fdeventInstall (.transport t) n) >>= fun D =>
        D.onLoop (Loop.fdeventSet (.transport t) fdeRead)) >>= fun D =>
          D.modifyT t (fun x => { x with disconnects := [] }) >>= fun D =>
            pure { D with transportList := D.transportList ++ [t] }) _
      rw [onLoop]
      cases hL : Loop.fdeventInstall (.transport t) n D₂.loop with
      | error r =>
        have hr := Loop.fdeventInstall_error hL
        subst hr
        exact ⟨m, .refl, trivial⟩
      | ok L =>
        show Explains e D₀ m.to m
          (Daemon.onLoop (Loop.fdeventSet (.transport t) fdeRead) { D₂ with loop := L } >>= _) _
        rw [onLoop]
        simp only
        cases hM : L.fdeventSet (.transport t) fdeRead with
        | error r => exact ⟨m, .refl, stopsAt_epollCtl hM⟩
        | ok M =>
          show Explains e D₀ m.to m (Daemon.modifyT t _ { D₂ with loop := M } >>= _) _
          rw [modifyT_bind (D := { D₂ with loop := M }) (x := y) (update_self ..)]
          have hstart : Effect e D₀ m _ := .start m t x rest n k L M hreg hx hn hk hnk hL hM
          have hpath := (ReflTransGen.single hstart).tail
            (.env _ { m.d.io with fds := fds } m.d.nextPacket)
          refine .ok ?_ trivial
          simp only [hD₂, setTransport, update_idem]
          exact hpath
    · exact ⟨m, .refl, trivial⟩
    · exact ⟨m, .refl, trivial⟩
  case isFalse hstate =>
    have henlist : Effect e D₀ m _ := .enlist m t x rest hreg hx (not_not.mp hstate)
    show Explains e D₀ m.to m (D₁.modifyT t _ >>= _) _
    rw [modifyT_bind hx₁]
    exact .ok (.single henlist) trivial

/-- `transport_registration_func`, action 0. -/
lemma removeTransport_explains {rest : List (TAddr × RegAction)} (h : Wf m) (hX : m.orphans = ∅)
    (hidle : m.handling = none) (hreg : m.d.registration = (t, .remove) :: rest)
    (hrem : Removes e D₀ t) (hhist : authHistory m.d.trace = authHistory D₀.trace)
    (hsame : m.d.loop.inUse = D₀.loop.inUse ∧ m.d.owner = D₀.owner ∧
      m.d.transports = D₀.transports) :
    Explains e D₀ m.to m
      (({ m.d with registration := rest }.emit (.fetched t .remove)).removeTransport t)
      fun _ => True := by
  obtain ⟨⟨x, hx⟩, hlast⟩ := h.queued_head hreg
  set D₁ : Daemon := { m.d with registration := rest }.emit (.fetched t .remove) with hD₁
  have hx₁ : D₁.transports t = some x := hx
  rw [removeTransport, derefT_bind hx₁]
  simp only
  set own : Bool := D₁.holds (D₁.loop.mem (.transport t)).fd (.transportSocket t) with hown
  have hshut : (if has (D₁.loop.mem (.transport t)).state fdeActive then
      D₁.emit (.shut (.transportSocket t) (D₁.loop.mem (.transport t)).fd own) else D₁) =
      { D₁ with trace := (if has (m.d.loop.mem (.transport t)).state fdeActive then
        [.shut (.transportSocket t) (m.d.loop.mem (.transport t)).fd own] else []) ++
          D₁.trace } := by
    by_cases hact : has (m.d.loop.mem (.transport t)).state fdeActive
    · simp only [hact, if_true, hD₁, emit]
      rfl
    · simp only [hact, hD₁, emit]
      rfl
  rw [hshut, onLoop]
  simp only
  cases hL : Loop.fdeventRemove (.transport t) m.d.loop with
  | error r =>
    rw [show D₁.loop = m.d.loop from rfl, hL]
    exact ⟨m, .refl, stopsAt_fatalFd hL⟩
  | ok L =>
    rw [show D₁.loop = m.d.loop from rfl, hL]
    set D₃ : Daemon := { D₁ with
      trace := (if has (m.d.loop.mem (.transport t)).state fdeActive then
        [.shut (.transportSocket t) (m.d.loop.mem (.transport t)).fd own] else []) ++ D₁.trace
      loop := L } with hD₃
    set D₄ : Daemon := { D₃.shut (.transportFd t) x.fd with
      transportList := m.d.transportList.erase t } with hD₄
    have hunplug : Effect e D₀ m (m.to D₄) := .unplug m t x rest L hreg hx hrem hsame hL
      (D₃.holds x.fd (.transportFd t)) own
    have hwf : Wf (m.to D₄) := hunplug.wf h
    refine .of_path (.single hunplug) ?_
    show Explains e D₀ m.to (m.to D₄) (D₄.runTransportDisconnects t >>= fun D =>
      pure { D with transports := update D.transports t none }) _
    refine Explained.bind (runTransportDisconnects_explains (m := m.to D₄) hwf hX hx)
      fun D₅ _ hD₅ => ?_
    have hx₅ : D₅.transports t = some { x with disconnects := [] } := by
      rw [hD₅.transports]
      exact update_self ..
    have hhist₅ : authHistory D₅.trace = authHistory D₀.trace := by
      rw [hD₅.quiet.history, ← hhist]
      show authHistory (_ :: ((if _ then _ else _) ++ _ :: m.d.trace)) = _
      split <;> rfl
    have hgone : ¬D₅.loop.Installed (.transport t) := by
      have hspec := Loop.fdeventRemove_spec hL
      rw [Loop.Installed, hD₅.mem _ fun a => by simp]
      show ¬has (L.mem (.transport t)).state fdeActive = true
      rw [hspec.mem_self, has_zero_left]
      decide
    have hreg₅ : ∀ a, (t, a) ∉ D₅.registration := by
      rw [hD₅.quiet.registration]
      exact hlast
    exact .ok (.single (.freeTransport (m.to D₅) t _ hidle hx₅ rfl hrem hhist₅ hreg₅ hgone)) trivial

/-- `transport_registration_func`. -/
lemma transportRegistrationFunc_explains {ev : BitVec 16} {rs : List Syscall.ReadResult}
    (h : Wf m) (hX : m.orphans = ∅) (hidle : m.handling = none)
    (hdel : D₀.delivered e = some (.registration, ev, rs))
    (hreg : m.d.registration = D₀.registration) (htrace : m.d.trace = D₀.trace)
    (hsame : m.d.loop.inUse = D₀.loop.inUse ∧ m.d.owner = D₀.owner ∧
      m.d.transports = D₀.transports) :
    Explains e D₀ m.to m (m.d.transportRegistrationFunc ev) fun _ => True := by
  rw [transportRegistrationFunc]
  split
  case isFalse => exact .ok .refl trivial
  case isTrue hev =>
    split
    case h_1 => exact ⟨m, .refl, trivial⟩
    case h_2 t rest hq => exact startTransport_explains h hq
    case h_3 t rest hq =>
      exact removeTransport_explains h hX hidle hq ⟨ev, rs, rest, hdel, hev, hreg ▸ hq⟩
        (by rw [htrace]) hsame

/-- `register_socket_transport` on a connection just accepted. -/
lemma registerSocketTransport_explains (serial : List UInt8) :
    Explains e D₀ m.to m (m.d.registerSocketTransport serial) fun _ => True := by
  rw [registerSocketTransport]
  rcases takeFd_cases (.sfd m.d.nextTAddr) m.d with h | ⟨n, fds, hn, h⟩ | h
  all_goals rw [h]
  · exact ⟨m, .refl, trivial⟩
  · have hpath : ReflTransGen (Effect e D₀) m (m.to (m.d.opened n (.sfd m.d.nextTAddr) fds)) :=
      path_opened fds hn
    refine .ok (hpath.tail (.register _ _ rfl fun k hk => ?_)) trivial
    simp only [Option.some.injEq] at hk
    subst hk
    exact ⟨rfl, holds_opened⟩
  · exact ⟨m, .refl, trivial⟩

lemma registerUsbTransport_explains :
    ReflTransGen (Effect e D₀) m (m.to m.d.registerUsbTransport) :=
  .single (.register m { type := .usb } rfl fun _ hn => by cases hn)

/-- What a removal adds to the history. -/
lemma unplug_trace {t : TAddr} {n k : ℕ} (own own' active : Bool) (tr : List Obs) :
    ∃ os : List Obs, .shut (.transportFd t) n own ::
        ((if active then [.shut (.transportSocket t) k own'] else []) ++
          .fetched t .remove :: tr) = os ++ tr ∧
      ∀ o ∈ os, (∃ d i b, o = .shut d i b) ∨ o = .fetched t .remove := by
  cases active with
  | true =>
    refine ⟨[.shut (.transportFd t) n own, .shut (.transportSocket t) k own',
      .fetched t .remove], rfl, fun o ho => ?_⟩
    rw [List.mem_cons, List.mem_cons, List.mem_singleton] at ho
    rcases ho with rfl | rfl | rfl
    · exact .inl ⟨_, _, _, rfl⟩
    · exact .inl ⟨_, _, _, rfl⟩
    · exact .inr rfl
  | false =>
    refine ⟨[.shut (.transportFd t) n own, .fetched t .remove], rfl, fun o ho => ?_⟩
    rw [List.mem_cons, List.mem_singleton] at ho
    rcases ho with rfl | rfl
    · exact .inl ⟨_, _, _, rfl⟩
    · exact .inr rfl

end Transports

end Adbd
