import Adbd.Effects.Initial
import Adbd.Effects.Transports

/-!
# Every step is a sequence of changes

The event loop, and with it the main result of this part: from a state that is consistent, a step
of the daemon is a path of elementary changes, and if the daemon stops then it stops at a moment
on such a path in which the stop is justified.
-/

namespace Adbd

open Function FlagWord Transition Relation Daemon

section Step

variable {e : Event} {D₀ : Daemon} {m : Moment} {k : FdeId} {ev : BitVec 16}

/-! ## JDWP processes -/

/-- The flag of a process counts as a subscription, so `epoll_ctl` is asked to modify an entry
that is not there. -/
lemma fdeventAdd_flagged {L : Loop FdeId} {n : ℕ}
    (hstate : (L.mem k).state = fdeActive ||| fdeCreated ||| fdeDontClose)
    (hfd : (L.mem k).fd = n) (hn : L.interest n = none) :
    L.fdeventAdd k fdeRead = .error (.epollCtl n) := by
  rw [Loop.fdeventAdd, Loop.fdeventSet, hstate, if_neg (by decide), if_pos (by decide),
    Loop.fdeventUpdate, hstate, hfd]
  simp only
  rw [if_pos (by decide), if_pos (by decide)]
  simp [Loop.epollCtl, Loop.setMem, hn]

lemma jdwpProcessAlloc_stops {D : Daemon} {n : ℕ} (hn : D.loop.interest n = none) :
    D.jdwpProcessAlloc n = .error (.fatalFd n) ∨ D.jdwpProcessAlloc n = .error (.epollCtl n) := by
  rw [jdwpProcessAlloc]
  simp only [onLoop]
  cases hcreate : Loop.fdeventCreate (.jdwpProcess D.nextAddr) n D.loop with
  | error r =>
    have hr := Loop.fdeventCreate_error hcreate
    subst hr
    exact .inl rfl
  | ok L =>
    right
    obtain ⟨T, M, hL, -⟩ := Loop.fdeventCreate_ok hcreate
    set k : FdeId := .jdwpProcess D.nextAddr
    have hmem : L.mem k = { fd := n, state := fdeActive ||| fdeCreated } := by
      rw [hL]
      exact Loop.setMem_mem_self ..
    have hint : L.interest n = none := by
      rw [hL]
      exact hn
    set N : Loop FdeId := L.setMem k { L.mem k with state := (L.mem k).state ||| fdeDontClose }
    have hadd : Loop.fdeventAdd k fdeRead N = .error (.epollCtl n) := by
      refine fdeventAdd_flagged ?_ ?_ hint
      · rw [Loop.setMem_mem_self, hmem]
      · rw [Loop.setMem_mem_self, hmem]
    show (Loop.fdeventAdd k fdeRead N >>= _) = _
    rw [hadd]
    rfl

/-- `jdwp_control_event`: a process that connects stops the daemon. -/
lemma jdwpControlEvent_explains (h : Wf m) :
    Explains e D₀ m.to m (m.d.jdwpControlEvent ev) fun _ => True := by
  rw [jdwpControlEvent]
  split
  case isFalse => exact .ok .refl trivial
  rcases takeFd_cases .jdwpProcess m.d with hfd | ⟨n, fds, hn, hfd⟩ | hfd
  all_goals rw [hfd]
  · exact .ok .refl trivial
  · have hnone : m.d.loop.interest n = none := by
      by_contra hsome
      obtain ⟨entry, he⟩ := Option.ne_none_iff_exists'.mp hsome
      rw [h.loop.kernel n entry he] at hn
      cases hn
    show Explains e D₀ m.to m ((m.d.opened n .jdwpProcess fds).jdwpProcessAlloc n) _
    rcases jdwpProcessAlloc_stops (D := m.d.opened n .jdwpProcess fds) hnone with hstop | hstop
    all_goals
      rw [hstop]
      exact ⟨m, .refl, trivial⟩
  · exact ⟨m, .refl, trivial⟩

lemma jdwpProcessEvent_explains (h : Wf m) (i : ℕ) :
    Explains e D₀ m.to m (m.d.jdwpProcessEvent ev i) fun _ => True := by
  rw [jdwpProcessEvent, findProcess, h.noProcess]
  exact ⟨m, .refl, trivial⟩

/-! ## Callbacks -/

/-- The callback of `k` is about to be called with the events `ev`: since the step began, only
the event loop and the answers of the environment have changed. -/
structure Calling (e : Event) (D₀ : Daemon) (m : Moment) (k : FdeId) (ev : BitVec 16) : Prop where
  wf : Wf m
  quiet : m = { d := m.d }
  same : ∃ L I, m.d = { D₀ with loop := L, io := I }
  inUse : m.d.loop.inUse = D₀.loop.inUse
  delivered : D₀.delivered e = some (k, ev, m.d.io.reads)
  writes : m.d.io.writes = e.io.writes
  events : (m.d.loop.mem k).events = 0#16
  read : has (m.d.loop.mem k).state fdeRead = has (D₀.loop.mem k).state fdeRead
  installed : k.isAuth = false → m.d.loop.Installed k
  alive : ∀ t, k = .auth t → ∃ x, m.d.transports t = some x

/-- `fde->func`. -/
lemma callback_explains (h : Calling e D₀ m k ev) :
    Explains e D₀ m.to m (m.d.callback k ev) fun _ => True := by
  obtain ⟨L, I, hd⟩ := h.same
  have hX : m.orphans = ∅ := by rw [h.quiet]
  have howed : m.owed = none := by rw [h.quiet]
  have hdrain : m.draining = none := by rw [h.quiet]
  have hidle : m.handling = none := by rw [h.quiet]
  have hcredit : m.credit = none := by rw [h.quiet]
  cases k with
  | socket a =>
    obtain ⟨s, hs, hfd, -⟩ := h.wf.loop.socket a (h.installed rfl)
    exact localSocketEventFunc_explains h.wf hX hidle howed h.delivered (by rw [hd])
      (by rw [hd]; exact ⟨rfl, rfl⟩) h.writes hs hfd h.read h.events
  | transport t =>
    obtain ⟨x, hx⟩ := Option.isSome_iff_exists.mp (h.wf.loop.transport t (h.installed rfl))
    exact transportSocketEvents_explains h.wf hX howed hdrain hidle hx h.delivered (by rw [hd])
      (by rw [hd]) (by rw [hd]) (by rw [hd]) (by rw [hd]) (by rw [hd]) (by rw [hd]) h.writes
      hcredit
  | auth t =>
    obtain ⟨x, hx⟩ := h.alive t rfl
    exact adbAuthEvent_explains hidle hcredit hx h.delivered
  | authListener => exact adbAuthListener_explains
  | registration =>
    exact transportRegistrationFunc_explains h.wf hX hidle h.delivered (by rw [hd]) (by rw [hd])
      ⟨h.inUse, by rw [hd], by rw [hd]⟩
  | listener => exact ssListenerEventFunc_explains h.wf hX (by rw [hd])
  | jdwpControl => exact jdwpControlEvent_explains h.wf
  | jdwpProcess i => exact jdwpProcessEvent_explains h.wf i
  | subproc => exact ⟨m, .refl, trivial⟩

/-- The event loop looks at an `fdevent` it refers to. -/
lemma touchFde_cases (h : Wf m) {D : Daemon} (hsock : D.sockets = m.d.sockets)
    (htr : D.transports = m.d.transports)
    (hlinked : k.isAuth = false → m.d.loop.Installed k)
    (hauth : ∀ t, k = .auth t → AuthLinked t m.d.loop) :
    (D.touchFde k = .ok () ∧ ∀ t, k = .auth t → ∃ x, m.d.transports t = some x) ∨
      ∃ t, D.touchFde k = .error (.freedTransport t) ∧ StopsAt m (.freedTransport t) := by
  cases k with
  | socket a =>
    obtain ⟨s, hs, -⟩ := h.loop.socket a (hlinked rfl)
    rw [touchFde, deref_bind (D := D) (hsock ▸ hs)]
    exact .inl ⟨rfl, fun t ht => by cases ht⟩
  | transport t =>
    obtain ⟨x, hx⟩ := Option.isSome_iff_exists.mp (h.loop.transport t (hlinked rfl))
    rw [touchFde, derefT_bind (D := D) (htr ▸ hx)]
    exact .inl ⟨rfl, fun t ht => by cases ht⟩
  | auth t =>
    rw [touchFde]
    cases hx : m.d.transports t with
    | none =>
      rw [derefT, htr, hx]
      exact .inr ⟨t, rfl, hx, hauth t rfl⟩
    | some x =>
      rw [derefT_bind (D := D) (htr ▸ hx)]
      refine .inl ⟨rfl, fun u hu => ?_⟩
      cases hu
      exact ⟨x, hx⟩
  | _ => exact .inl ⟨rfl, fun t ht => by cases ht⟩

/-! ## Dispatching -/

variable {L : Loop FdeId}

/-- What a dispatch comes to: having changed nothing but the event loop and the answers left, it
makes a callback, or is done, or stops for a reason of the event loop's. -/
def Dispatches (e : Event) (D₀ : Daemon) (m : Moment) (x : Except Stop Daemon) : Prop :=
  ∃ m', ReflTransGen (Effect e D₀) m m' ∧ m' = m.to m'.d ∧
    (∃ L I, m'.d = { D₀ with loop := L, io := I }) ∧
    ((∃ k ev, Calling e D₀ m' k ev ∧ x = m'.d.callback k ev) ∨ x = .ok m'.d ∨
      ∃ r, x = .error r ∧ StopsAt m' r ∧ ∀ t, r ≠ .queueFull t)

namespace Dispatches

variable {m' : Moment} {x : Except Stop Daemon}

lemma ok (h : ∃ L I, m.d = { D₀ with loop := L, io := I }) : Dispatches e D₀ m (.ok m.d) :=
  ⟨m, .refl, rfl, h, .inr (.inl rfl)⟩

lemma stop (h : ∃ L I, m.d = { D₀ with loop := L, io := I }) {r : Stop} (hr : StopsAt m r)
    (hfull : ∀ t, r ≠ .queueFull t) : Dispatches e D₀ m (.error r) :=
  ⟨m, .refl, rfl, h, .inr (.inr ⟨r, rfl, hr, hfull⟩)⟩

lemma call (h : Calling e D₀ m k ev) : Dispatches e D₀ m (m.d.callback k ev) :=
  ⟨m, .refl, rfl, h.same, .inl ⟨k, ev, h, rfl⟩⟩

lemma after {D : Daemon} (he : Effect e D₀ m (m.to D)) (h : Dispatches e D₀ (m.to D) x) :
    Dispatches e D₀ m x := by
  obtain ⟨n, hpath, hn, hrest⟩ := h
  exact ⟨n, .head he hpath, hn, hrest⟩

/-- The changes a dispatch makes. -/
lemma explains (h : Dispatches e D₀ m x) : Explains e D₀ m.to m x fun _ => True := by
  obtain ⟨n, hpath, hn, -, hcall | hok | ⟨r, hr, hstop, -⟩⟩ := h
  · obtain ⟨k, ev, hcalling, rfl⟩ := hcall
    have hto : m.to = n.to := by
      funext D
      rw [hn]
      rfl
    rw [hto]
    exact .of_path hpath (callback_explains hcalling)
  · subst hok
    exact .ok (hn ▸ hpath) trivial
  · subst hr
    exact ⟨n, hpath, hstop⟩

end Dispatches

/-- The callback made for the head of the pending list. -/
lemma calling_of_dispatch (h : Wf m) (hm : m = { d := { D₀ with io := e.io } })
    (hact : e.action = .dispatch) (hq : m.d.loop.fdeventPlistDequeue = some (k, L))
    (hk : k ≠ .subproc) (hpend : has (m.d.loop.mem k).state fdePending = true)
    (halive : ∀ t, k = .auth t → ∃ x, m.d.transports t = some x) :
    Calling e D₀ (m.to { m.d with loop := (L.fdeventCallFdfunc k).2 }) k
      (m.d.loop.mem k).events := by
  obtain ⟨rest, hlist, rfl⟩ := Loop.fdeventPlistDequeue_eq hq
  have hdispatch : Effect e D₀ m _ := .dispatch m k _ hq
  subst hm
  -- the flag goes, and the events with it
  have hcall : (Loop.fdeventCallFdfunc k { D₀.loop with listPending := rest }).2 =
      Loop.setMem k { D₀.loop.mem k with
        events := 0#16
        state := (D₀.loop.mem k).state &&& ~~~fdePending }
        { D₀.loop with listPending := rest } := by
    rw [Loop.fdeventCallFdfunc]
    simp only
    rw [if_pos hpend]
  refine ⟨hdispatch.wf h, rfl, ⟨_, _, rfl⟩, ?_, ?_, rfl, ?_, ?_, ?_, halive⟩
  · simp only [Moment.to]
    rw [hcall]
    rfl
  · rw [Daemon.delivered, hact, show D₀.loop.listPending = k :: rest from hlist]
    simp only
    rw [if_pos hpend, if_neg hk]
    rfl
  · simp only [Moment.to]
    rw [hcall, Loop.setMem_mem_self]
  · simp only [Moment.to]
    rw [hcall, Loop.setMem_mem_self]
    exact has_and_not_of_disjoint (by decide)
  · intro hauth
    have hin := (h.loop.pending k (by rw [show _ = _ from hlist]; exact List.mem_cons_self)
      hauth).1
    exact (Loop.installed_fdeventCallFdfunc k _ k).mpr hin

/-- `fdevent_call_fdfunc` for the head of the pending list. -/
lemma callFdfunc_dispatches (h : Wf m) (hm : m = { d := { D₀ with io := e.io } })
    (hact : e.action = .dispatch) (hq : m.d.loop.fdeventPlistDequeue = some (k, L))
    (hk : k ≠ .subproc) (halive : ∀ t, k = .auth t → ∃ x, m.d.transports t = some x) :
    Dispatches e D₀ m (Daemon.callFdfunc k { m.d with loop := L }) := by
  have hdispatch : Effect e D₀ m _ := .dispatch m k L hq
  have hmem : L.mem k = m.d.loop.mem k := by
    obtain ⟨rest, -, rfl⟩ := Loop.fdeventPlistDequeue_eq hq
    rfl
  refine .after hdispatch ?_
  rw [callFdfunc]
  simp only
  by_cases hpend : has (m.d.loop.mem k).state fdePending = true
  · have hcalling := calling_of_dispatch h hm hact hq hk hpend halive
    have hsome : (L.fdeventCallFdfunc k).1 = some (m.d.loop.mem k).events := by
      rw [Loop.fdeventCallFdfunc, hmem, if_pos hpend]
    generalize L.fdeventCallFdfunc k = res at hsome hcalling
    obtain ⟨ev, L'⟩ := res
    simp only at hsome
    subst hsome
    exact .call hcalling
  · have hnone : (L.fdeventCallFdfunc k).1 = none := by
      rw [Loop.fdeventCallFdfunc, hmem, if_neg hpend]
    generalize L.fdeventCallFdfunc k = res at hnone
    obtain ⟨ev, L'⟩ := res
    simp only at hnone
    subst hnone
    exact .ok (m := m.to { m.d with loop := L' }) ⟨L', e.io, by rw [hm]; rfl⟩

/-! ## The exit of a shell -/

/-- `fdevent_subproc_event_func` is about to be called with the events `ev`. -/
structure Notified (e : Event) (D₀ : Daemon) (m : Moment) (ev : BitVec 16) : Prop where
  wf : Wf m
  quiet : m = { d := m.d }
  same : ∃ L, m.d = { D₀ with loop := L, io := e.io }
  inUse : m.d.loop.inUse = D₀.loop.inUse
  table : m.d.loop.fdTable = D₀.loop.fdTable
  tableMax : m.d.loop.fdTableMax = D₀.loop.fdTableMax
  mem : ∀ j, j ≠ .subproc → m.d.loop.mem j = D₀.loop.mem j
  delivered : D₀.delivered e = D₀.forced e.io
  event : ev = (D₀.loop.mem .subproc).events

lemma forced_eq {n : ℕ} {bs : List UInt8} {rs : List Syscall.ReadResult}
    (hev : has (D₀.loop.mem .subproc).events fdeRead = true)
    (hread : Syscall.readFull 4 e.io.reads = (some bs, rs))
    (hn : bs.foldr (fun b n => b.toNat + 256 * n) 0 = n) (hmax : ¬D₀.loop.fdTableMax ≤ n)
    (hslot : D₀.loop.fdTable n = .fde k) (hfd : (D₀.loop.mem k).fd = n)
    (hfion : e.io.fionread = 0) (hpend : has (D₀.loop.mem k).state fdePending = false) :
    D₀.forced e.io = some (k, (D₀.loop.mem k).events ||| fdeRead, rs) := by
  rw [Daemon.forced, if_pos hev, hread]
  simp only [hn]
  rw [if_neg hmax, hslot]
  simp only
  rw [if_pos ⟨hfd, hfion, hpend⟩]

/-- The socket whose shell has exited is marked, and called if there is nothing to read. -/
lemma forceEof_dispatches {n : ℕ} {rs : List Syscall.ReadResult} (h : Wf m) (hm : m = { d := m.d })
    (hsame : ∃ L, m.d = { D₀ with loop := L, io := { e.io with reads := rs } })
    (hinUse : m.d.loop.inUse = D₀.loop.inUse) (hslot : m.d.loop.fdTable n = .fde k)
    (hcall : e.io.fionread = 0 → has (m.d.loop.mem k).state fdePending = false → k ≠ .subproc →
      D₀.delivered e = some (k, (m.d.loop.mem k).events ||| fdeRead, rs) ∧
        D₀.loop.mem k = m.d.loop.mem k) :
    Dispatches e D₀ m (do
      let D : Daemon := { m.d with
        loop := m.d.loop.setMem k { m.d.loop.mem k with forceEof := true } }
      if D.io.fionread ≠ 0 then pure D
      else
        let fde := { D.loop.mem k with events := (D.loop.mem k).events ||| fdeRead }
        if has fde.state fdePending then pure { D with loop := D.loop.setMem k fde }
        else do
          D.touchFde k
          let fde := { fde with state := fde.state ||| fdePending }
          callFdfunc k { D with loop := D.loop.setMem k fde }) := by
  simp only [Loop.setMem_mem_self]
  have hleft : ∀ M, ∃ L I, { m.d with loop := M } = { D₀ with loop := L, io := I } := by
    obtain ⟨L, hd⟩ := hsame
    exact fun M => ⟨M, { e.io with reads := rs }, by rw [hd]⟩
  obtain ⟨L, hd⟩ := hsame
  have hio : m.d.io.fionread = e.io.fionread := by rw [hd]
  have htwice : ∀ f g : Fdevent, (m.d.loop.setMem k f).setMem k g = m.d.loop.setMem k g := by
    intro f g
    simp [Loop.setMem]
  split
  case isTrue =>
    have hforce : Effect e D₀ m _ := .force m n k _ hslot (.inl rfl)
    exact .after hforce (.ok (hleft _))
  case isFalse hfion =>
    have hfion : e.io.fionread = 0 := hio ▸ not_not.mp hfion
    rw [htwice, htwice]
    split
    case isTrue =>
      have hforce : Effect e D₀ m _ := .force m n k _ hslot (.inr (.inl rfl))
      exact .after hforce (.ok (hleft _))
    case isFalse hpend =>
      rw [Bool.not_eq_true] at hpend
      set D₁ : Daemon := { m.d with
        loop := m.d.loop.setMem k { m.d.loop.mem k with forceEof := true } }
      rcases touchFde_cases (k := k) (D := D₁) h rfl rfl
        (fun hauth => (h.loop.slot n k hslot hauth).1)
        (fun t ht => .inr (.inr ⟨n, ht ▸ hslot⟩)) with ⟨htouch, halive⟩ | ⟨t, htouch, hstop⟩
      case inr =>
        rw [htouch]
        exact .stop ⟨_, _, hd⟩ hstop (by simp)
      rw [htouch]
      show Dispatches e D₀ m (callFdfunc k _)
      rw [callFdfunc, Loop.fdeventCallFdfunc]
      simp only [Loop.setMem_mem_self, has_or, show has fdePending fdePending = true by decide,
        Bool.or_true, if_true, htwice, or_and_not hpend]
      have hforce : Effect e D₀ m _ := .force m n k 0#16 hslot (.inr (.inr rfl))
      refine .after hforce ?_
      by_cases hk : k = .subproc
      · subst hk
        refine .stop (r := .disabled) ?_ trivial (by simp)
        exact hleft _
      obtain ⟨hdel, hmem⟩ := hcall hfion hpend hk
      set f : Fdevent := { m.d.loop.mem k with forceEof := true, events := 0#16 }
      refine .call ⟨hforce.wf h, ?_,
        ⟨m.d.loop.setMem k f, { e.io with reads := rs }, ?_⟩, hinUse, ?_, ?_, ?_, ?_, ?_, halive⟩
      all_goals simp only [Moment.to]
      · rw [hm]
      · rw [hd]
      · show _ = some (k, _, m.d.io.reads)
        rw [hdel, hd]
      · show m.d.io.writes = _
        rw [hd]
      · rw [Loop.setMem_mem_self]
      · rw [Loop.setMem_mem_self, hmem]
      · intro hauth
        rw [Loop.Installed, Loop.setMem_mem_self]
        exact (h.loop.slot n k hslot hauth).1

/-- The notification names the descriptor `n`. -/
lemma exited_dispatches (n : ℕ) (rs : List Syscall.ReadResult) (h : Wf m) (hm : m = { d := m.d })
    (hsame : ∃ L, m.d = { D₀ with loop := L, io := { e.io with reads := rs } })
    (hinUse : m.d.loop.inUse = D₀.loop.inUse)
    (hcall : ∀ k, ¬m.d.loop.fdTableMax ≤ n → m.d.loop.fdTable n = .fde k →
      (m.d.loop.mem k).fd = n → e.io.fionread = 0 →
      has (m.d.loop.mem k).state fdePending = false → k ≠ .subproc →
      D₀.delivered e = some (k, (m.d.loop.mem k).events ||| fdeRead, rs) ∧
        D₀.loop.mem k = m.d.loop.mem k) :
    Dispatches e D₀ m (
      if m.d.loop.fdTableMax ≤ n then pure m.d
      else
        match m.d.loop.fdTable n with
        | .null => pure m.d
        | .wild => .error (.wildFde n)
        | .fde k =>
          if (m.d.loop.mem k).fd ≠ n then pure m.d
          else do
            let D : Daemon := { m.d with
              loop := m.d.loop.setMem k { m.d.loop.mem k with forceEof := true } }
            if D.io.fionread ≠ 0 then pure D
            else
              let fde := { D.loop.mem k with events := (D.loop.mem k).events ||| fdeRead }
              if has fde.state fdePending then pure { D with loop := D.loop.setMem k fde }
              else do
                D.touchFde k
                let fde := { fde with state := fde.state ||| fdePending }
                callFdfunc k { D with loop := D.loop.setMem k fde }) := by
  have hleft : ∃ L I, m.d = { D₀ with loop := L, io := I } := by
    obtain ⟨L, hd⟩ := hsame
    exact ⟨L, _, hd⟩
  split
  case isTrue => exact .ok hleft
  case isFalse hmax =>
    split
    case h_1 => exact .ok hleft
    case h_2 => exact .stop hleft trivial (by simp)
    case h_3 k hslot =>
      split
      case isTrue => exact .ok hleft
      case isFalse hfd =>
        exact forceEof_dispatches h hm hsame hinUse hslot (hcall k hmax hslot (not_not.mp hfd))

/-- `fdevent_subproc_event_func`. -/
lemma fdeventSubprocEventFunc_dispatches (h : Notified e D₀ m ev) :
    Dispatches e D₀ m (m.d.fdeventSubprocEventFunc ev) := by
  obtain ⟨M, hd⟩ := h.same
  rw [fdeventSubprocEventFunc, onLoop]
  cases hadd : m.d.loop.fdeventAdd .subproc fdeRead with
  | error r =>
    obtain ⟨n, rfl⟩ := Loop.fdeventSet_error hadd
    exact .stop ⟨M, e.io, hd⟩ trivial (by simp)
  | ok L =>
    have hset := Loop.fdeventSet_spec hadd
    have hrearm : Effect e D₀ m _ := .rearm m L _ hset
    refine .after hrearm ?_
    have hwf := hrearm.wf h.wf
    have hleft : ∃ N I, (m.to { m.d with loop := L }).d = { D₀ with loop := N, io := I } :=
      ⟨L, e.io, by rw [hd]; rfl⟩
    show Dispatches e D₀ (m.to { m.d with loop := L }) (if _ then _ else _)
    split
    case isFalse => exact .ok hleft
    case isTrue hev =>
      have hreads : m.d.io.reads = e.io.reads := by rw [hd]
      simp only [hreads]
      cases hread : Syscall.readFull 4 e.io.reads with
      | mk o rs =>
      cases o with
      | none => exact .stop hleft trivial (by simp)
      | some bs =>
        simp only
        set n : ℕ := bs.foldr (fun b n => b.toNat + 256 * n) 0 with hn
        have henv : Effect e D₀ (m.to { m.d with loop := L }) _ :=
          .env _ { m.d.io with reads := rs } m.d.nextPacket
        refine .after henv ?_
        set m' : Moment := m.to { m.d with loop := L, io := { m.d.io with reads := rs } } with hm'
        refine exited_dispatches (m := m') n rs (henv.wf hwf) ?_ ⟨L, ?_⟩
          (hset.inUse.trans h.inUse) ?_
        · rw [hm', h.quiet]
          rfl
        · simp only [hm', Moment.to]
          rw [hd]
        · intro k hmax hslot hfd hfion hpend hk
          have hmem : L.mem k = D₀.loop.mem k := (hset.mem_other k hk).trans (h.mem k hk)
          refine ⟨?_, hmem.symm⟩
          rw [h.delivered]
          refine (forced_eq (k := k) (h.event ▸ hev) hread hn.symm ?_ ?_ ?_ hfion ?_).trans ?_
          · rw [← h.tableMax, ← hset.fdTableMax]
            exact hmax
          · rw [← h.table, ← hset.fdTable]
            exact hslot
          · rw [← hmem]
            exact hfd
          · rw [← hmem]
            exact hpend
          · rw [← hmem]
            rfl

/-- One iteration of the inner loop of `fdevent_loop`. -/
theorem dispatch_dispatches (h : Wf m) (hm : m = { d := { D₀ with io := e.io } })
    (hact : e.action = .dispatch) : Dispatches e D₀ m m.d.dispatch := by
  have hleft : ∃ L I, m.d = { D₀ with loop := L, io := I } := ⟨D₀.loop, e.io, by rw [hm]⟩
  rw [Daemon.dispatch]
  cases hq : m.d.loop.fdeventPlistDequeue with
  | none => exact .stop hleft trivial (by simp)
  | some kL =>
    obtain ⟨k, L⟩ := kL
    obtain ⟨rest, hlist, hL⟩ := Loop.fdeventPlistDequeue_eq hq
    have hmem : k ∈ m.d.loop.listPending := hlist ▸ List.mem_cons_self
    rcases touchFde_cases (k := k) (D := { m.d with loop := L }) h rfl rfl
      (fun hauth => (h.loop.pending k hmem hauth).1) (fun t ht => .inl (ht ▸ hmem))
      with ⟨htouch, halive⟩ | ⟨t, htouch, hstop⟩
    case inr =>
      simp only [htouch]
      exact .stop hleft hstop nofun
    simp only [htouch]
    show Dispatches e D₀ m (if k = .subproc then _ else _)
    by_cases hk : k = .subproc
    · subst hk
      simp only [if_true]
      have hdispatch : Effect e D₀ m _ := .dispatch m .subproc L hq
      have hpend : has (m.d.loop.mem .subproc).state fdePending = true :=
        (h.loop.pending .subproc hmem (by rfl)).2.1
      -- the flag goes, and the events with it
      obtain ⟨M, hcall, hM⟩ : ∃ M, L.fdeventCallFdfunc .subproc =
          (some (m.d.loop.mem .subproc).events, M) ∧
          M = L.setMem .subproc { m.d.loop.mem .subproc with
            events := 0#16
            state := (m.d.loop.mem .subproc).state &&& ~~~fdePending } := by
        subst hL
        rw [Loop.fdeventCallFdfunc]
        simp only
        rw [if_pos hpend]
        exact ⟨_, rfl, rfl⟩
      rw [hcall] at hdispatch ⊢
      refine .after hdispatch (fdeventSubprocEventFunc_dispatches
        (m := m.to { m.d with loop := M }) ⟨hdispatch.wf h, ?_, ⟨M, ?_⟩, ?_, ?_, ?_, ?_, ?_, ?_⟩)
      · rw [hm]
        rfl
      · simp only [Moment.to]
        rw [hm]
      · show M.inUse = _
        rw [hM, hL, hm]
        rfl
      · show M.fdTable = _
        rw [hM, hL, hm]
        rfl
      · show M.fdTableMax = _
        rw [hM, hL, hm]
        rfl
      · intro j hj
        show M.mem j = _
        rw [hM, Loop.setMem_mem_of_ne hj, hL, hm]
      · rw [hm] at hlist hpend
        rw [Daemon.delivered, hact, show D₀.loop.listPending = _ from hlist]
        simp only
        rw [if_pos hpend, if_pos trivial]
      · rw [hm]
    · simp only [hk, if_false]
      exact callFdfunc_dispatches h hm hact hq hk halive

/-! ## Steps -/

/-- `fdevent_process`. -/
lemma fdeventProcess_explains (h : Wf m) (batch : List (ℕ × EpollMask)) :
    Explains e D₀ m.to m (fdeventProcess batch m.d) fun _ => True := by
  induction batch generalizing m with
  | nil => exact .ok .refl trivial
  | cons b batch ih =>
    obtain ⟨n, ev⟩ := b
    rw [fdeventProcess]
    cases hentry : m.d.loop.interest n with
    | none => exact ⟨m, .refl, trivial⟩
    | some mk =>
      obtain ⟨mask, k⟩ := mk
      simp only
      split
      case isFalse => exact ⟨m, .refl, trivial⟩
      case isTrue hev =>
        rcases touchFde_cases (k := k) (D := m.d) h rfl rfl
          (fun hauth => (h.loop.entry n mask k hentry hauth).1)
          (fun t ht => .inr (.inl ⟨n, mask, ht ▸ hentry⟩)) with ⟨htouch, -⟩ | ⟨t, htouch, hstop⟩
        case inr =>
          rw [htouch]
          exact ⟨m, .refl, hstop⟩
        rw [htouch]
        have hreport : Effect e D₀ m _ := .report m n ev mask k hentry hev
        exact .of_path (.single hreport)
          (ih (m := m.to { m.d with loop := m.d.loop.fdeventReport k ev }) (hreport.wf h))

/-- Whatever happens, the step is a sequence of changes. -/
lemma act_explains (h : Wf m) (hm : m = { d := { D₀ with io := e.io } }) :
    Explains e D₀ m.to m (m.d.act e.action) fun _ => True := by
  have hX : m.orphans = ∅ := by rw [hm]
  have hidle : m.handling = none := by rw [hm]
  cases hact : e.action with
  | epollWait batch =>
    rw [act]
    split
    case isTrue => exact fdeventProcess_explains h batch
    case isFalse => exact ⟨m, .refl, trivial⟩
  | dispatch => exact (dispatch_dispatches h hm hact).explains
  | output t =>
    rw [act]
    split
    case isTrue hx =>
      obtain ⟨x, hx⟩ := Option.isSome_iff_exists.mp hx
      exact outputThread_explains hidle hx hact (by rw [hm])
    case isFalse => exact ⟨m, .refl, trivial⟩
  | input t =>
    rw [act]
    split
    case isTrue hx =>
      obtain ⟨x, hx⟩ := Option.isSome_iff_exists.mp hx
      exact inputThread_explains h hX hidle hx hact (by rw [hm]) (by rw [hm])
        (by rw [hm] at hx; exact hx) (by rw [hm]) (by rw [hm])
    case isFalse => exact ⟨m, .refl, trivial⟩
  | registerSocket serial => exact registerSocketTransport_explains serial
  | registerUsb => exact .ok registerUsbTransport_explains trivial
  | openFd =>
    rw [act]
    rcases takeFd_cases .other m.d with hfd | ⟨n, fds, hn, hfd⟩ | hfd
    all_goals rw [hfd]
    · exact ⟨m, .refl, trivial⟩
    · exact .ok (path_opened fds hn) trivial
    · exact ⟨m, .refl, trivial⟩
  | closeFd n =>
    rw [act]
    split
    case isTrue hn => exact .ok (.single (.closed m n hn)) trivial
    case isFalse => exact ⟨m, .refl, trivial⟩

end Step

/-! ## The callback of a step -/

namespace Daemon

variable {e : Event} {D D' : Daemon} {k : FdeId} {ev : BitVec 16} {rs : List Syscall.ReadResult}

lemma callback_of_callFdfunc {D : Daemon} (hpend : has (D.loop.mem k).state fdePending = true)
    (hs : D.callFdfunc k = .ok D') : ∃ L : Loop FdeId, L.inUse = D.loop.inUse ∧
      callback k (D.loop.mem k).events { D with loop := L } = .ok D' := by
  simp only [callFdfunc, Loop.fdeventCallFdfunc, hpend, if_true] at hs
  refine ⟨_, ?_, hs⟩
  rfl

/-- The socket whose shell has exited is called. -/
lemma callback_of_exited {D : Daemon} {n : ℕ} (hn : ¬D.loop.fdTableMax ≤ n)
    (hslot : D.loop.fdTable n = .fde k) (hfd : (D.loop.mem k).fd = n) (hfion : D.io.fionread = 0)
    (hidle : has (D.loop.mem k).state fdePending = false)
    (hs : (if D.loop.fdTableMax ≤ n then pure D
      else
        match D.loop.fdTable n with
        | .null => pure D
        | .wild => Except.error (Stop.wildFde n)
        | .fde k =>
          let fde := D.loop.mem k
          if fde.fd ≠ n then pure D
          else
            let D := { D with loop := D.loop.setMem k { fde with forceEof := true } }
            if D.io.fionread ≠ 0 then pure D
            else
              let fde := { D.loop.mem k with events := (D.loop.mem k).events ||| fdeRead }
              if has fde.state fdePending then pure { D with loop := D.loop.setMem k fde }
              else do
                D.touchFde k
                let fde := { fde with state := fde.state ||| fdePending }
                callFdfunc k { D with loop := D.loop.setMem k fde }) = .ok D') :
    ∃ L : Loop FdeId, L.inUse = D.loop.inUse ∧
      callback k ((D.loop.mem k).events ||| fdeRead) { D with loop := L } = .ok D' := by
  rw [if_neg hn, hslot] at hs
  dsimp only at hs
  rw [if_neg (not_not_intro hfd), if_neg (not_not_intro hfion)] at hs
  simp only [Loop.setMem_mem_self, hidle] at hs
  rw [if_neg Bool.false_ne_true] at hs
  obtain ⟨-, -, hs⟩ := bind_eq_ok_iff.mp hs
  have hpend : has ((D.loop.mem k).state ||| fdePending) fdePending = true := by
    rw [has_or, Bool.or_eq_true]
    exact Or.inr (by decide)
  obtain ⟨L, hL, hcallback⟩ := callback_of_callFdfunc (by rw [Loop.setMem_mem_self]; exact hpend) hs
  rw [Loop.setMem_mem_self] at hcallback
  exact ⟨L, hL, hcallback⟩

/-- The callback `fdevent_subproc_event_func` is said to make is the last thing it does. -/
lemma callback_of_forced {L : Loop FdeId} (hk : k ≠ .subproc)
    (hforced : D.forced e.io = some (k, ev, rs))
    (hmem : ∀ j, j ≠ .subproc → L.mem j = D.loop.mem j) (htable : L.fdTable = D.loop.fdTable)
    (hmax : L.fdTableMax = D.loop.fdTableMax) (hin : L.inUse = D.loop.inUse)
    (hs : fdeventSubprocEventFunc (D.loop.mem .subproc).events
      { D with loop := L, io := e.io } = .ok D') :
    ∃ M : Loop FdeId, M.inUse = D.loop.inUse ∧
      callback k ev { D with loop := M, io := { e.io with reads := rs } } = .ok D' := by
  obtain ⟨D₁, hadd, hs⟩ := bind_eq_ok_iff.mp hs
  rw [onLoop] at hadd
  obtain ⟨N, hN, hD₁⟩ := bind_eq_ok_iff.mp hadd
  cases hD₁
  have hset := Loop.fdeventSet_spec hN
  rw [forced] at hforced
  split at hforced
  case isFalse => cases hforced
  case isTrue hev =>
    rw [if_pos hev] at hs
    dsimp only at hs
    rcases hread : Syscall.readFull 4 e.io.reads with ⟨o, rest⟩
    rw [hread] at hforced hs
    cases o with
    | none => cases hforced
    | some bs =>
      dsimp only at hforced hs
      set n := bs.foldr (fun b n => b.toNat + 256 * n) 0
      split at hforced
      case isTrue => cases hforced
      case isFalse hn =>
        split at hforced
        case h_2 => cases hforced
        case h_1 j hslot =>
          split at hforced
          case isFalse => cases hforced
          case isTrue hcall =>
            obtain ⟨hfd, hfion, hidle⟩ := hcall
            cases hforced
            have hmem' : N.mem k = D.loop.mem k := (hset.mem_other k hk).trans (hmem k hk)
            have hlast := callback_of_exited (D := { D with
              loop := N
              io := { e.io with reads := rs } }) (n := n) (k := k)
              (by rwa [hset.fdTableMax, hmax]) (by rwa [hset.fdTable, htable]) (by rwa [hmem'])
              hfion (by rwa [hmem']) hs
            obtain ⟨M, hM, hcallback⟩ := hlast
            rw [hmem'] at hcallback
            exact ⟨M, hM.trans (hset.inUse.trans hin), hcallback⟩

/-- The callback a step is said to make is the last thing it does. -/
lemma callback_of_delivered (h : D.delivered e = some (k, ev, rs)) (hk : k ≠ .subproc)
    (hs : D.step e = .ok D') :
    ∃ L : Loop FdeId, L.inUse = D.loop.inUse ∧
      callback k ev { D with loop := L, io := { e.io with reads := rs } } = .ok D' := by
  rw [delivered] at h
  split at h
  case h_2 => cases h
  case h_1 j rest hact hlist =>
    split at h
    case isFalse => cases h
    case isTrue hpend =>
      rw [step, hact] at hs
      change Daemon.dispatch { D with io := e.io } = .ok D' at hs
      simp only [Daemon.dispatch, Loop.fdeventPlistDequeue, hlist] at hs
      obtain ⟨-, -, hs⟩ := bind_eq_ok_iff.mp hs
      split at h
      case isFalse hj =>
        cases h
        rw [if_neg hj] at hs
        exact callback_of_callFdfunc
          (D := { D with loop := { D.loop with listPending := rest }, io := e.io }) hpend hs
      case isTrue hj =>
        subst hj
        simp only [Loop.fdeventCallFdfunc, hpend, if_true] at hs
        refine callback_of_forced hk h ?_ ?_ ?_ ?_ hs
        · intro j hj
          exact Loop.setMem_mem_of_ne hj ..
        all_goals rfl

end Daemon

/-! ## The main results -/

variable {e : Event} {D D' : Daemon}

/-- The changes of a step from `D`, between steps. -/
theorem step_explains (h : Wf { d := D }) :
    Explains e D (fun D' => { d := D' }) { d := D } (D.step e) fun _ => True := by
  have henv : Effect e D { d := D } _ := .env { d := D } e.io D.nextPacket
  exact .of_path (.single henv) (act_explains (henv.wf h) rfl)

/-- A step is a path of elementary changes. -/
theorem path_of_step (h : Wf { d := D }) (hs : D.step e = .ok D') :
    ReflTransGen (Effect e D) { d := D } { d := D' } :=
  (step_explains h).path hs

/-- The daemon stops for a reason. -/
theorem stops_of_step {r : Stop} (h : Wf { d := D }) (hs : D.step e = .error r) :
    ∃ m, ReflTransGen (Effect e D) { d := D } m ∧ StopsAt m r :=
  (step_explains h).stop hs

/-- A step keeps the state consistent. -/
theorem wf_of_step (h : Wf { d := D }) (hs : D.step e = .ok D') : Wf { d := D' } :=
  wf_of_path (path_of_step h hs) h

/-- What holds at a moment of a step held before the step, or a change up to there brought it
about. -/
theorem before_of_path {P : Daemon → Prop} {C : Prop} (hwf : Wf { d := D })
    (hpath : ReflTransGen (Effect e D) { d := D } m)
    (hP : ∀ m m', ReflTransGen (Effect e D) { d := D } m → Wf m → Effect e D m m' → P m'.d →
      P m.d ∨ C)
    (h : P m.d) : P D ∨ C := by
  induction hpath with
  | refl => exact .inl h
  | tail hpath he ih => exact (hP _ _ hpath (wf_of_path hpath hwf) he h).elim ih .inr

/-- What holds after a step held before it, or one of its changes brought it about. -/
theorem before_of_step {P : Daemon → Prop} {C : Prop} (hwf : Wf { d := D })
    (hs : D.step e = .ok D')
    (hP : ∀ m m', ReflTransGen (Effect e D) { d := D } m → Wf m → Effect e D m m' → P m'.d →
      P m.d ∨ C)
    (h : P D') : P D ∨ C :=
  before_of_path hwf (path_of_step hwf hs) hP h

/-! ## Runs -/

/-- `Inv` is kept by every change of a step that meets `C`, starting where it holds. -/
def Kept (C : Event → Daemon → Prop) (Inv : Moment → Prop) : Prop :=
  ∀ e D m m', C e D → Wf { d := D } → Inv { d := D } → ReflTransGen (Effect e D) { d := D } m →
    Wf m → Inv m → Effect e D m m' → Inv m'

variable {C : Event → Daemon → Prop} {Inv : Moment → Prop} {es : List Event}

/-- What every change keeps holds throughout the step. -/
lemma Kept.path (h : Kept C Inv) (hC : C e D) (hwf : Wf { d := D }) (hinv : Inv { d := D })
    {m : Moment} (hpath : ReflTransGen (Effect e D) { d := D } m) : Inv m := by
  have hall : Wf m ∧ Inv m ∧ ReflTransGen (Effect e D) { d := D } m := by
    induction hpath with
    | refl => exact ⟨hwf, hinv, .refl⟩
    | tail _ he ih =>
      obtain ⟨hw, hi, hp⟩ := ih
      exact ⟨he.wf hw, h e D _ _ hC hwf hinv hp hw hi he, hp.tail he⟩
  exact hall.2.1

lemma Kept.step (h : Kept C Inv) (hC : C e D) (hwf : Wf { d := D }) (hinv : Inv { d := D })
    (hs : D.step e = .ok D') : Inv { d := D' } :=
  h.path hC hwf hinv (path_of_step hwf hs)

/-- The consistency of a state and what the changes keep hold along a run that meets `C`. -/
theorem Kept.run (h : Kept C Inv) (hwf : Wf { d := D }) (hinv : Inv { d := D })
    (hC : Along Daemon.step C es D) (hrun : run Daemon.step es D = .ok D') :
    Wf { d := D' } ∧ Inv { d := D' } :=
  @run_invariant _ _ _ Daemon.step C (fun D => Wf { d := D } ∧ Inv { d := D })
    (fun _ _ _ hs hC hstep => ⟨wf_of_step hs.1 hstep, h.step hC hs.1 hs.2 hstep⟩) es D D'
    ⟨hwf, hinv⟩ hC hrun

theorem wf_of_run (hwf : Wf { d := D }) (hrun : run Daemon.step es D = .ok D') :
    Wf { d := D' } :=
  @run_invariant _ _ _ Daemon.step (fun _ _ => True) (fun D => Wf { d := D })
    (fun _ _ _ hs _ hstep => wf_of_step hs hstep) es D D' hwf along_true hrun

/-- `adb_main` and the events after it. -/
def Daemon.start (config : Config) (fds : List ℕ) (inUse : ℕ → Bool) (es : List Event) :
    Except Stop Daemon := do
  let D ← adbMain config fds inUse
  run Daemon.step es D

/-- A run on concrete events, and what it shows of the state it ends in. -/
lemma exists_run {β : Type} (config : Config) (fds : List ℕ) (inUse : ℕ → Bool)
    (es : List Event) {f : Daemon → β} {b : β}
    (h : (Daemon.start config fds inUse es).toOption.map f = some b) :
    ∃ D₀ D, adbMain config fds inUse = .ok D₀ ∧ run Daemon.step es D₀ = .ok D ∧ f D = b := by
  cases hstart : Daemon.start config fds inUse es with
  | error r =>
    rw [hstart] at h
    cases h
  | ok D =>
    rw [hstart] at h
    rw [Daemon.start, bind_eq_ok_iff] at hstart
    obtain ⟨D₀, hmain, hrun⟩ := hstart
    exact ⟨D₀, D, hmain, hrun, Option.some.inj h⟩

/-- What a run on concrete events shows of the state it ends in. -/
lemma exists_reachable {β : Type} (config : Config) (fds : List ℕ) (inUse : ℕ → Bool)
    (es : List Event) {f : Daemon → β} {b : β}
    (h : (Daemon.start config fds inUse es).toOption.map f = some b) :
    ∃ D, Reachable D ∧ f D = b := by
  obtain ⟨D₀, D, hmain, hrun, hf⟩ := exists_run config fds inUse es h
  exact ⟨D, ⟨config, fds, inUse, D₀, es, hmain, hrun⟩, hf⟩

theorem Daemon.Reachable.wf (h : Reachable D) : Wf { d := D } := by
  obtain ⟨config, fds, inUse, D₀, es, hmain, hrun⟩ := h
  exact wf_of_run (wf_adbMain hmain) hrun

/-- The daemon gets to `D` by a run whose steps all meet `C`. -/
def ReachableBy (C : Event → Daemon → Prop) (D : Daemon) : Prop :=
  ∃ config fds inUse D₀ es, adbMain config fds inUse = .ok D₀ ∧ Along Daemon.step C es D₀ ∧
    run Daemon.step es D₀ = .ok D

lemma ReachableBy.reachable (h : ReachableBy C D) : Daemon.Reachable D := by
  obtain ⟨config, fds, inUse, D₀, es, hmain, -, hrun⟩ := h
  exact ⟨config, fds, inUse, D₀, es, hmain, hrun⟩

/-- What `adb_main` establishes and every step that meets `C` keeps holds along every run that
meets `C`. -/
theorem ReachableBy.invariant {P : Daemon → Prop} (hD : ReachableBy C D)
    (hinit : ∀ config fds inUse D, adbMain config fds inUse = .ok D → P D)
    (hstep : ∀ e D D', C e D → Wf { d := D } → P D → D.step e = .ok D' → P D') : P D := by
  obtain ⟨config, fds, inUse, D₀, es, hmain, hC, hrun⟩ := hD
  have hkept := @run_invariant _ _ _ Daemon.step C (fun D => Wf { d := D } ∧ P D)
    (fun _ _ _ hs hC hrun => ⟨wf_of_step hs.1 hrun, hstep _ _ _ hC hs.1 hs.2 hrun⟩) es D₀ D
  exact (hkept ⟨wf_adbMain hmain, hinit _ _ _ _ hmain⟩ hC hrun).2

/-- What the changes keep and `adb_main` establishes holds along every run that meets `C`. -/
theorem Kept.reachableBy (h : Kept C Inv)
    (hinit : ∀ config fds inUse D, adbMain config fds inUse = .ok D → Inv { d := D })
    (hD : ReachableBy C D) : Inv { d := D } := by
  exact hD.invariant hinit fun _ _ _ hC hwf hinv hs => h.step hC hwf hinv hs

lemma reachableBy_true (h : Reachable D) : ReachableBy (fun _ _ => True) D := by
  obtain ⟨config, fds, inUse, D₀, es, hmain, hrun⟩ := h
  exact ⟨config, fds, inUse, D₀, es, hmain, along_true, hrun⟩

/-- What the changes keep and `adb_main` establishes holds in every reachable state. -/
theorem Kept.reachable (h : Kept (fun _ _ => True) Inv)
    (hinit : ∀ config fds inUse D, adbMain config fds inUse = .ok D → Inv { d := D })
    (hD : Reachable D) : Inv { d := D } := by
  exact h.reachableBy hinit (reachableBy_true hD)

/-- What a run on concrete events, each of whose steps passes the test `c`, shows of the state it
ends in. -/
lemma exists_reachableBy {β : Type} (config : Config) (fds : List ℕ) (inUse : ℕ → Bool)
    (es : List Event) (c : Event → Daemon → Bool) {f : Daemon → β} {b : β}
    (hc : ∀ e D, Wf { d := D } → c e D = true → C e D)
    (h : ((adbMain config fds inUse).toOption.bind (walk Daemon.step c es)).map f = some b) :
    ∃ D, ReachableBy C D ∧ f D = b := by
  rw [Option.map_eq_some_iff] at h
  obtain ⟨D, hwalk, hf⟩ := h
  rw [Option.bind_eq_some_iff] at hwalk
  obtain ⟨D₀, hmain, hwalk⟩ := hwalk
  have hmain' : adbMain config fds inUse = .ok D₀ := by
    cases hx : adbMain config fds inUse with
    | error r =>
      rw [hx] at hmain
      cases hmain
    | ok D₁ =>
      rw [hx] at hmain
      exact congrArg _ (Option.some.inj hmain)
  obtain ⟨hrun, halong⟩ := of_walk hwalk
  refine ⟨D, ⟨config, fds, inUse, D₀, es, hmain', ?_, hrun⟩, hf⟩
  exact @Along.of_invariant _ _ _ Daemon.step _ _ (fun D => Wf { d := D })
    (fun _ _ _ hwf _ hstep => wf_of_step hwf hstep) (fun e D => hc e D) es D₀ (wf_adbMain hmain')
    halong

end Adbd
