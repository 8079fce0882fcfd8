import Adbd.Effects.Events

/-!
# New sockets, as changes

What `A_OPEN` and a connection to the listener create.  A new socket is an orphan until it is
paired.

A step creates one socket with a local id at most, and does so before it has given out any other
id: that is the hypothesis `hfirst` of the changes that create one, and it is why the lemmas here
ask for the next id to be what it was when the step began.  `service_to_fd` opens descriptors and
nothing else (`OnlyOpens`), so the socket that follows has a descriptor of its own.  For the two
JDWP services and the tracker there is no descriptor.  The remote end of a stream is made by the
pairing itself, in one change with both links.
-/

namespace Adbd

open Function FlagWord Transition Relation Daemon

section Services

variable {e : Event} {D₀ : Daemon} {m : Moment} {a : Addr} {s : Asocket}

/-! ## Descriptors and new sockets -/

/-- A system call that opens a descriptor for `d`, or fails. -/
lemma takeFd_explains {d : Desc} :
    Explains e D₀ (fun r => m.to r.2) m (m.d.takeFd d) fun r =>
      (r.1 = none ∧ r.2 = m.d) ∨ ∃ n fds, r.1 = some n ∧ m.d.loop.inUse n = false ∧
        r.2 = { m.d with
          loop := { m.d.loop with inUse := update m.d.loop.inUse n true }
          owner := update m.d.owner n (some d)
          io := { m.d.io with fds := fds } } := by
  rw [takeFd]
  cases m.d.io.fds with
  | nil => exact .ok .refl (.inl ⟨rfl, rfl⟩)
  | cons n fds =>
    simp only [Loop.openFd]
    split
    · exact ⟨m, .refl, trivial⟩
    case isFalse hfree =>
      rw [Bool.not_eq_true] at hfree
      have hopen : Effect e D₀ m _ := .opened m n d hfree
      refine .ok ((ReflTransGen.single hopen).tail ?_) (.inr ⟨n, fds, rfl, hfree, rfl⟩)
      exact .env _ { m.d.io with fds := fds } m.d.nextPacket

/-- A socket just created, not paired yet. -/
structure Created (D : Daemon) (a : Addr) (D' : Daemon) : Prop where
  addr : a = D.nextAddr
  live : ∃ s, D'.sockets a = some s ∧ s.peer = none ∧ s.closing = false ∧ s.pkts = [] ∧
    s.ops.isLocal = true ∧ (s.ops.isFd = true →
      (D'.loop.mem (.socket a)).state = fdeActive ∧ (D'.loop.mem (.socket a)).events = 0#16)
  list : a ∈ D'.localSocketList
  transports : D'.transports = D.transports
  config : D'.config = D.config
  trace : D'.trace = D.trace

/-- The state after a local socket was allocated and put in the list. -/
def Daemon.allocated (s : Asocket) (D : Daemon) : Daemon :=
  { D with
    sockets := update D.sockets D.nextAddr (some { s with id := D.localSocketNextId })
    nextAddr := D.nextAddr + 1
    localSocketNextId := D.localSocketNextId + 1
    localSocketList := D.localSocketList ++ [D.nextAddr]
    loop := D.loop.setMem (.socket D.nextAddr) {} }

lemma installLocalSocket_calloc (s : Asocket) (D : Daemon) :
    (D.callocSocket s).2.installLocalSocket D.nextAddr = .ok (D.allocated s) := by
  rw [installLocalSocket, deref_bind (s := s) (update_self ..)]
  simp [callocSocket, allocated, setSocket, pure, Except.pure]

/-- `create_local_socket` on a descriptor opened for it. -/
lemma createLocalSocket_explains {n : ℕ} (hown : m.d.holds n (.socket m.d.nextAddr) = true)
    (hfirst : m.d.localSocketNextId = D₀.localSocketNextId) :
    Explains e D₀ (fun r => m.withOrphan r.1 r.2) m (m.d.createLocalSocket n) fun r =>
      Created m.d r.1 r.2 ∧ ∃ s, r.2.sockets r.1 = some s ∧ s.ops = .fd := by
  show Explains e D₀ _ m ((m.d.callocSocket _).2.installLocalSocket m.d.nextAddr >>= _) _
  rw [installLocalSocket_calloc]
  show Explains e D₀ _ m ((m.d.allocated _).onLoop _ >>= _) _
  rw [onLoop]
  cases hins : Loop.fdeventInstall (.socket m.d.nextAddr) n
      (m.d.allocated { ops := .fd, fd := n }).loop with
  | error st =>
    have hst := Loop.fdeventInstall_error hins
    subst hst
    exact ⟨m, .refl, trivial⟩
  | ok L =>
    have hcreate : Effect e D₀ m _ := .createFd m n L hfirst hown hins
    obtain ⟨U, M, hL, -⟩ := Loop.fdeventInstall_ok hins
    have hmem : L.mem (.socket m.d.nextAddr) = { fd := n, state := fdeActive } := by
      rw [hL]
      exact Loop.setMem_mem_self ..
    have hlive : (m.d.allocated { ops := .fd, fd := n }).sockets m.d.nextAddr =
        some { ops := .fd, fd := n, id := m.d.localSocketNextId } := update_self ..
    refine .ok (.single hcreate) ⟨⟨rfl, ⟨_, hlive, rfl, rfl, rfl, rfl, fun _ => ?_⟩, ?_, rfl, rfl,
      rfl⟩, _, hlive, rfl⟩
    · show (L.mem _).state = _ ∧ (L.mem _).events = _
      rw [hmem]
      exact ⟨rfl, rfl⟩
    · exact List.mem_append_right _ List.mem_cons_self

/-- `create_jdwp_service_socket`. -/
lemma createJdwpServiceSocket_explains
    (hfirst : m.d.localSocketNextId = D₀.localSocketNextId) :
    Explains e D₀ (fun r => m.withOrphan r.1 r.2) m m.d.createJdwpServiceSocket fun r =>
      Created m.d r.1 r.2 := by
  show Explains e D₀ _ m ((m.d.callocSocket _).2.installLocalSocket m.d.nextAddr >>= _) _
  rw [installLocalSocket_calloc]
  have hlive : (m.d.allocated { ops := .jdwp }).sockets m.d.nextAddr =
      some { ops := .jdwp, id := m.d.localSocketNextId } := update_self ..
  refine .ok (.single (.createJdwp m hfirst))
    ⟨rfl, ⟨_, hlive, rfl, rfl, rfl, rfl, fun hfd => ?_⟩, ?_, rfl, rfl, rfl⟩
  · cases hfd
  · exact List.mem_append_right _ List.mem_cons_self

/-- `create_jdwp_tracker_service_socket`. -/
lemma createJdwpTrackerServiceSocket_explains
    (hfirst : m.d.localSocketNextId = D₀.localSocketNextId) :
    Explains e D₀ (fun r => m.withOrphan r.1 r.2) m m.d.createJdwpTrackerServiceSocket fun r =>
      Created m.d r.1 r.2 := by
  rw [createJdwpTrackerServiceSocket]
  refine Explained.bind (touchTrackers_explains fun b hb => ?_) fun _ _ _ => ?_
  · rw [Option.mem_toList] at hb
    exact List.mem_of_getLast? hb
  set D₁ : Daemon := { m.d with jdwpTrackersList := m.d.jdwpTrackersList ++ [m.d.nextAddr] }
    with hD₁
  show Explains e D₀ _ m ((D₁.callocSocket _).2.installLocalSocket D₁.nextAddr >>= _) _
  rw [installLocalSocket_calloc]
  have hlive : (D₁.allocated { ops := .tracker, needUpdate := true }).sockets m.d.nextAddr =
      some { ops := .tracker, needUpdate := true, id := m.d.localSocketNextId } := update_self ..
  refine .ok (.single (.createTracker m hfirst))
    ⟨rfl, ⟨_, hlive, rfl, rfl, rfl, rfl, fun hfd => ?_⟩, ?_, rfl, rfl, rfl⟩
  · cases hfd
  · exact List.mem_append_right _ List.mem_cons_self

/-- What opening descriptors changes. -/
def OnlyOpens (D D' : Daemon) : Prop :=
  ∃ U O I, D' = { D with loop := { D.loop with inUse := U }, owner := O, io := I }

/-- The descriptor a system call returned is held for its purpose. -/
lemma holds_opened {n : ℕ} {d : Desc} {D : Daemon} {fds : List ℕ} :
    Daemon.holds n d { D with
      loop := { D.loop with inUse := update D.loop.inUse n true }
      owner := update D.owner n (some d)
      io := { D.io with fds := fds } } = true := by
  simp [Daemon.holds]

/-- `service_to_fd`. -/
lemma serviceToFd_explains {name : List UInt8} (h : Wf m) :
    Explains e D₀ (fun r => m.to r.2) m (m.d.serviceToFd name) fun r =>
      OnlyOpens m.d r.2 ∧ ∀ n, r.1 = some n → r.2.holds n (.socket m.d.nextAddr) = true := by
  have hone : Explains e D₀ (fun r => m.to r.2) m (m.d.takeFd (.socket m.d.nextAddr)) fun r =>
      OnlyOpens m.d r.2 ∧ ∀ n, r.1 = some n → r.2.holds n (.socket m.d.nextAddr) = true := by
    refine takeFd_explains.mono ?_
    rintro ⟨fd, D⟩ - (⟨hfd, hD⟩ | ⟨n, fds, hfd, -, hD⟩)
    all_goals
      simp only at hfd hD
      subst hfd hD
    · exact ⟨⟨_, _, _, rfl⟩, fun n hn => by cases hn⟩
    · refine ⟨⟨_, _, _, rfl⟩, fun k hk => ?_⟩
      cases hk
      exact holds_opened
  have hnone : Explains e D₀ (fun r => m.to r.2) m
      (pure ((none : Option ℕ), m.d) : Except Stop (Option ℕ × Daemon)) fun r =>
      OnlyOpens m.d r.2 ∧ ∀ n, r.1 = some n → r.2.holds n (.socket m.d.nextAddr) = true :=
    .ok .refl ⟨⟨_, _, _, rfl⟩, fun n hn => by cases hn⟩
  rw [serviceToFd]
  split
  · exact hnone
  · rw [createJdwpConnectionFd, h.noProcess]
    exact hnone
  · refine Explained.bind takeFd_explains ?_
    rintro ⟨near, D⟩ - (⟨hnear, hD⟩ | ⟨n, fds, hnear, hfree, hD⟩)
    all_goals
      simp only at hnear hD
      subst hnear
    all_goals
      refine Explained.bind (takeFd_explains (m := m.to D)) ?_
      rintro ⟨far, D'⟩ - (⟨hfar, hD'⟩ | ⟨k, fds', hfar, hfree', hD'⟩)
      all_goals
        simp only at hfar hD'
        subst hfar hD' hD
    · exact .ok .refl ⟨⟨_, _, _, rfl⟩, fun n hn => by cases hn⟩
    · exact .ok .refl ⟨⟨_, _, _, rfl⟩, fun n hn => by cases hn⟩
    · exact ⟨_, .refl, trivial⟩
    · refine .ok .refl ⟨⟨_, _, _, rfl⟩, fun j hj => ?_⟩
      cases hj
      have hne : n ≠ k := by
        rintro rfl
        simp [Moment.to] at hfree'
      simp [Daemon.holds, Moment.to, update_of_ne hne]
  · exact hone

/-! ## Services -/

/-- The moment after a socket may have been created. -/
def Moment.created (m : Moment) (r : Option Addr × Daemon) : Moment :=
  match r.1 with
  | some a => m.withOrphan a r.2
  | none => m.to r.2

/-- Opening descriptors concerns neither the new socket nor the rest. -/
lemma Created.start {D D₁ D' : Daemon} (h : Created D₁ a D') (hopen : OnlyOpens D D₁) :
    Created D a D' := by
  obtain ⟨U, O, I, rfl⟩ := hopen
  exact ⟨h.addr, h.live, h.list, h.transports, h.config, h.trace⟩

/-- What `create_local_service_socket` did. -/
structure ServiceCreated (D : Daemon) (r : Option Addr × Daemon) : Prop where
  created : ∀ a, r.1 = some a → Created D a r.2
  none : r.1 = none → OnlyOpens D r.2

lemma createLocalServiceSocket_explains {name : List UInt8} (h : Wf m)
    (hfirst : m.d.localSocketNextId = D₀.localSocketNextId) :
    Explains e D₀ m.created m (m.d.createLocalServiceSocket name) (ServiceCreated m.d) := by
  have hsome : ∀ {a D}, Created m.d a D → ServiceCreated m.d (some a, D) := by
    intro a D hD
    refine ⟨fun b hb => ?_, fun hno => by cases hno⟩
    cases hb
    exact hD
  rw [createLocalServiceSocket]
  split
  · refine Explained.bind (createJdwpServiceSocket_explains hfirst) fun r _ hr => ?_
    exact .ok .refl (hsome hr)
  split
  · refine Explained.bind (createJdwpTrackerServiceSocket_explains hfirst) fun r _ hr => ?_
    exact .ok .refl (hsome hr)
  refine Explained.bind (serviceToFd_explains h) ?_
  rintro ⟨fd, D⟩ hpath ⟨hopen, hown⟩
  cases fd with
  | none => exact .ok .refl ⟨fun a ha => (by cases ha), fun _ => hopen⟩
  | some n =>
    have hown' : D.holds n (.socket D.nextAddr) = true := by
      have := hown n rfl
      obtain ⟨U, O, I, rfl⟩ := hopen
      exact this
    have hfirst' : D.localSocketNextId = D₀.localSocketNextId := by
      obtain ⟨U, O, I, rfl⟩ := hopen
      exact hfirst
    simp only
    refine Explained.bind (createLocalSocket_explains (m := m.to D) hown' hfirst') ?_
    rintro ⟨a, D'⟩ - ⟨hcreated, s, hs, hops⟩
    have hcreated := hcreated.start hopen
    rw [deref_bind (D := D') hs]
    split
    case isTrue =>
      have hexits : Effect e D₀ (m.withOrphan a D') _ := .exits _ a s hs
      refine .ok (.single hexits) (hsome ?_)
      obtain ⟨z, hz, hp, hc, hq, hlocal, hfde⟩ := hcreated.live
      rw [hs, Option.some.injEq] at hz
      subst hz
      exact ⟨hcreated.addr, ⟨_, setSocket_sockets_self .., hp, hc, hq, hlocal, hfde⟩,
        hcreated.list, hcreated.transports, hcreated.config, hcreated.trace⟩
    case isFalse => exact .ok .refl (hsome hcreated)

/-! ## The listener -/

/-- `connect_to_smartsocket` on a socket just accepted. -/
lemma connectToSmartsocket_explains (h : Wf m) (hs : m.d.sockets a = some s)
    (ha : a ∈ m.orphans) (hp : s.peer = none) (hops : s.ops = .fd) (hc : s.closing = false)
    (hl : a ∈ m.d.localSocketList) (hin : m.d.loop.Installed (.socket a)) :
    Explains e D₀ (m.without a) m (m.d.connectToSmartsocket a) fun _ => True := by
  have hne : a ≠ m.d.nextAddr := Nat.ne_of_lt (h.peers.fresh a s hs)
  have haccept : Effect e D₀ m _ := .accept m a s hs ha hp hops hc hl hin
  have hwf := haccept.wf h
  set D₁ : Daemon := { m.d with
    sockets := update (update m.d.sockets m.d.nextAddr
      (some { ops := .smart, peer := some a })) a (some { s with peer := some m.d.nextAddr })
    nextAddr := m.d.nextAddr + 1
    loop := m.d.loop.setMem (.socket m.d.nextAddr) {} } with hD₁
  have hin₁ : D₁.loop.Installed (.socket a) := by
    have hkne : FdeId.socket a ≠ .socket m.d.nextAddr := fun heq => hne (FdeId.socket.inj heq)
    rw [Loop.Installed, Loop.setMem_mem_of_ne hkne]
    exact hin
  have hs₁ : D₁.sockets a = some { s with peer := some m.d.nextAddr } := update_self ..
  have hready : D₁.ready a = D₁.localSocketReady a := by
    rw [ready, deref_bind hs₁]
    simp only [hops]
  rw [connectToSmartsocket]
  simp only [callocSocket]
  rw [deref_bind ((update_of_ne hne ..).trans hs)]
  refine .of_path (.single haccept) ?_
  show Explains e D₀ _ { m with d := D₁, orphans := m.orphans \ {a} } (D₁.ready a) fun _ => True
  rw [hready]
  refine onLoop_explains (fun L hL => ⟨.single ?_, trivial⟩) fun r hr => stopsAt_epollCtl hr
  refine .subscribe _ a _ _ L hs₁ (by rw [hops]; rfl) hin₁ (Loop.fdeventSet_spec hL) ?_ ?_
    ⟨m.d.nextAddr, _, rfl, (update_of_ne hne.symm ..).trans (update_self ..), rfl⟩ ?_
  · rw [Loop.has_add (by decide), hwf.loop.low a]
    decide
  · rw [Loop.has_add (by decide), show has fdeRead fdeRead = true by decide, Bool.or_true]
  · rw [Loop.has_add (by decide), show has fdeRead fdeWrite = false by decide, Bool.or_false]

/-- `ss_listener_event_func`. -/
lemma ssListenerEventFunc_explains {ev : BitVec 16} (h : Wf m) (hX : m.orphans = ∅)
    (hfirst : m.d.localSocketNextId = D₀.localSocketNextId) :
    Explains e D₀ m.to m (m.d.ssListenerEventFunc ev) fun _ => True := by
  rw [ssListenerEventFunc]
  split
  case isFalse => exact .ok .refl trivial
  refine Explained.bind takeFd_explains ?_
  rintro ⟨fd, D⟩ hpath (⟨hfd, hD⟩ | ⟨n, fds, hfd, -, hD⟩)
  all_goals
    simp only at hfd hD
    subst hfd hD
  · exact .ok .refl trivial
  · simp only
    refine Explained.bind (createLocalSocket_explains (m := m.to _) holds_opened hfirst) ?_
    rintro ⟨a, D'⟩ hpath' ⟨hcreated, s, hs, hops⟩
    obtain ⟨z, hz, hp, hc, -, -, hfde⟩ := hcreated.live
    simp only at hs hz hfde
    rw [hs, Option.some.injEq] at hz
    subst hz
    obtain ⟨hstate, -⟩ := hfde (by rw [hops]; rfl)
    have hin : D'.loop.Installed (.socket a) := by
      rw [Loop.Installed, hstate]
      decide
    have hwf := wf_of_path (hpath.trans hpath') h
    have hend : Moment.without (m.withOrphan a D') a = m.to := by
      funext D''
      simp [Moment.without, Moment.withOrphan, Moment.to, hX]
    have hconnect : Explains e D₀ _ (m.withOrphan a D') (D'.connectToSmartsocket a) fun _ =>
        True :=
      connectToSmartsocket_explains hwf hs (Set.mem_insert ..) hp hops hc hcreated.list hin
    rw [hend] at hconnect
    exact hconnect

/-! ## Pairing -/

/-- The state after `s->peer=create_remote_socket(id,t); s->peer->peer=s;`. -/
def Daemon.paired (a : Addr) (s : Asocket) (id : UInt32) (t : TAddr) (x : Atransport)
    (D : Daemon) : Daemon :=
  { D with
    sockets := update (update D.sockets D.nextAddr
      (some { ops := .remote, id := id, transport := some t, peer := some a })) a
      (some { s with peer := some D.nextAddr })
    nextAddr := D.nextAddr + 1
    loop := D.loop.setMem (.socket D.nextAddr) {}
    transports := update D.transports t
      (some { x with disconnects := x.disconnects ++ [D.nextAddr] })
    trace := .stream D.nextAddr a s.id id t :: D.trace }

lemma pairRemote_eq {D : Daemon} {id : UInt32} {t : TAddr} {x : Atransport}
    (hs : D.sockets a = some s) (hx : D.transports t = some x) (hne : a ≠ D.nextAddr) :
    D.pairRemote a id t = .ok (D.nextAddr, D.paired a s id t x) := by
  set q : Asocket := { ops := .remote, id := id, transport := some t } with hq
  set D₂ : Daemon := (D.callocSocket q).2.setTransport t
    { x with disconnects := x.disconnects ++ [D.nextAddr] } with hD₂
  have hcreate : D.createRemoteSocket id t = .ok (D.nextAddr, D₂) := by
    show ((D.callocSocket q).2.addTransportDisconnect t D.nextAddr >>= _) = _
    rw [addTransportDisconnect, derefT_bind (D := (D.callocSocket q).2) hx]
    rfl
  have hs₂ : D₂.sockets a = some s := (update_of_ne hne ..).trans hs
  have hr₂ : (D₂.setSocket a { s with peer := some D.nextAddr }).sockets D.nextAddr = some q :=
    (update_of_ne hne.symm ..).trans (update_self ..)
  rw [pairRemote, hcreate]
  show (D₂.deref a >>= _) = _
  rw [deref_bind hs₂]
  simp only
  rw [deref_bind hr₂]
  have hsockets : update (update (update D.sockets D.nextAddr (some q)) a
      (some { s with peer := some D.nextAddr })) D.nextAddr (some { q with peer := some a }) =
      update (update D.sockets D.nextAddr (some { q with peer := some a })) a
        (some { s with peer := some D.nextAddr }) := by
    rw [update_comm hne, update_idem]
  exact congrArg (fun f => (Except.ok (D.nextAddr, { D.paired a s id t x with sockets := f }) :
    Except Stop (Addr × Daemon))) hsockets

end Services

end Adbd
