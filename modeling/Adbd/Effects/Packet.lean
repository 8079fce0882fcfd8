import Adbd.Effects.Services

/-!
# Packets from a transport, as changes

`handle_packet` and the answer of the framework, each as a sequence of elementary changes.

## One packet

`Received` is the moment at which a packet has come in and nothing has been done with it.  The
sockets, the lists and the next id are still those of the state `D₀` the step started in, which is
what the changes refer to, so a case of `handle_packet` that looks up `arg1` finds the socket
`Reaches` speaks of.  Every case ends in `m.spent`: an `A_OKAY` is good for one subscription, and
what it allowed is gone when the packet has been handled.

## What is sent

`send_connect`, `send_auth_request` and the `A_CLSE` that refuses a stream make packets that
belong to no socket, and `sendMsg_explains` is about these; the echo of an `A_SYNC` is the packet
that came in.  The `A_OKAY` for an `A_WRTE` or an `A_OPEN` belongs to the remote end of a stream.
It is paid from `owed`, which `enqueue` and the pairing of the two ends set.

## Sessions

`handle_offline` runs `run_transport_disconnects` with the transport marked as draining; the mark
is taken away when the list is empty.  `A_SYNC` with `arg0` 0 and a repeated `A_CNXN` go through
it, and an `A_SYNC` is the only packet after which the daemon may send the last packet of a
session.  `adb_auth_verified` puts the transport online from `adb_auth_event`, when no packet is
being handled at all.
-/

namespace Adbd

open Function FlagWord Transition Relation Daemon

section Packet

variable {e : Event} {D₀ : Daemon} {m : Moment} {t : TAddr} {x : Atransport} {p : Apacket}
  {a : Addr} {s : Asocket}

/-- Nothing has happened in the step but that the packet `p` of `t` has come in. -/
structure Received (e : Event) (D₀ : Daemon) (m : Moment) (t : TAddr) (x : Atransport)
    (p : Apacket) : Prop where
  wf : Wf m
  orphans : m.orphans = ∅
  owed : m.owed = none
  draining : m.draining = none
  handling : m.handling = some (t, some p)
  alive : m.d.transports t = some x
  handles : Handles e D₀ t p
  online : x.online = true → (D₀.transports t).any (·.online) = true
  credit : p.msg.command = aOkay → m.credit = some p.msg.arg1
  trace : m.d.trace = .received t p :: D₀.trace
  sockets : m.d.sockets = D₀.sockets
  list : m.d.localSocketList = D₀.localSocketList
  nextAddr : m.d.nextAddr = D₀.nextAddr
  nextId : m.d.localSocketNextId = D₀.localSocketNextId
  framework : m.d.frameworkFd = D₀.frameworkFd
  writes : m.d.io.writes = e.io.writes

lemma Received.not_orphan (h : Received e D₀ m t x p) (a : Addr) : a ∉ m.orphans := by
  rw [h.orphans]
  exact Set.notMem_empty a

lemma Received.maySend (h : Received e D₀ m t x p) : m.MaySend t := .inl ⟨_, h.handling⟩

lemma Received.serving (h : Received e D₀ m t x p) (hcmd : p.msg.command ≠ aSync) :
    m.Serving t :=
  ⟨p, h.handling, hcmd⟩

lemma Received.reaches (h : Received e D₀ m t x p) (hon : x.online = true)
    (hfind : m.d.findLocalSocket p.msg.arg1 = some a) : Reaches e D₀ t p a := by
  rw [findLocalSocket, h.list, h.sockets] at hfind
  exact ⟨h.handles, h.online hon, hfind⟩

/-- What is sent while another packet than an `A_SYNC` is handled echoes nothing. -/
lemma echoes_of_handling {q : Apacket} (hp : m.handling = some (t, some p))
    (hcmd : p.msg.command ≠ aSync) : m.Echoes t q := by
  intro u r hserve hsync
  rw [hp] at hserve
  cases hserve
  exact absurd hsync hcmd

/-- An `A_OKAY` that has come in is forgotten at the end, if not before. -/
lemma spend_explains {z : Except Stop Daemon} {Q : Daemon → Prop}
    (h : Explains e D₀ m.to m z Q) : Explains e D₀ m.spent m z Q := by
  cases z with
  | ok D => exact ⟨h.1.tail (.forget _), h.2⟩
  | error r => exact h

/-! ## Going online and offline -/

lemma modifyT_eq {D : Daemon} (hx : D.transports t = some x) (f : Atransport → Atransport) :
    D.modifyT t f = .ok (D.setTransport t (f x)) :=
  modifyT_eq_ok.mpr ⟨x, hx, rfl⟩

/-- Going on with an assignment. -/
lemma modifyT_bind {β : Type} {D : Daemon} (hx : D.transports t = some x)
    (f : Atransport → Atransport) (k : Daemon → Except Stop β) :
    (D.modifyT t f >>= k) = k (D.setTransport t (f x)) := by
  rw [modifyT_eq hx]
  rfl

@[simp] lemma setTransport_self (t : TAddr) (x : Atransport) (D : Daemon) :
    (D.setTransport t x).transports t = some x :=
  update_self ..

/-- The transport `t`, which was `x`, has gone offline, and its streams are gone. -/
structure WentOffline (t : TAddr) (x : Atransport) (D D' : Daemon) : Prop where
  transports : D'.transports = update D.transports t
    (some { x with online := false, disconnects := [] })
  config : D'.config = D.config

/-- `handle_offline`. -/
lemma handleOffline_explains (h : Wf m) (hX : m.orphans = ∅) (hidle : m.draining = none)
    (hx : m.d.transports t = some x) :
    Explains e D₀ m.to m (m.d.handleOffline t) (WentOffline t x m.d) := by
  have hdown : Effect e D₀ m _ := .down m t x hx hidle
  set m₁ : Moment := { m with
    d := m.d.setTransport t { x with online := false }
    draining := some t } with hm₁
  rw [handleOffline, modifyT_bind hx]
  refine .of_path (.single hdown) ?_
  have hrun : Explains e D₀ m₁.to m₁ (m₁.d.runTransportDisconnects t) _ :=
    runTransportDisconnects_explains (hdown.wf h) hX (setTransport_self ..)
  show Explains e D₀ m.to m₁ (m₁.d.runTransportDisconnects t) _
  cases hres : m₁.d.runTransportDisconnects t with
  | error r =>
    rw [hres] at hrun
    exact hrun
  | ok D' =>
    rw [hres] at hrun
    obtain ⟨hpath, hD'⟩ := hrun
    have htr : D'.transports = update m.d.transports t
        (some { x with online := false, disconnects := [] }) := by
      rw [hD'.transports]
      exact update_idem ..
    have hdone : Effect e D₀ (m₁.to D') _ := .drainedAll (m₁.to D') t
      { x with online := false, disconnects := [] } (by
        show D'.transports t = _
        rw [htr, update_self]) rfl rfl
    have hend : ({ m₁.to D' with draining := none } : Moment) = m.to D' := by
      simp [Moment.to, hm₁, hidle]
    rw [hend] at hdone
    exact ⟨hpath.tail hdone, htr, hD'.quiet.config⟩

/-! ## What the daemon sends of its own -/

/-- A packet sent for no stream. -/
lemma about_none {q : Apacket} (hclse : q.msg.command = aClse → .refused t q.msg.arg1 ∈ m.d.trace)
    (hechoes : m.Echoes t q) : m.About e D₀ none q t :=
  ⟨hclse, hechoes⟩

/-- `send_packet` of a fresh packet, on behalf of no stream. -/
lemma sendMsg_explains {msg : Amessage} {data : List UInt8} (hx : m.d.transports t = some x)
    (hserve : ∃ q, m.handling = some (t, q)) (hechoes : ∀ q, m.Echoes t q)
    (hclse : msg.command = aClse → .refused t msg.arg1 ∈ m.d.trace) (hcmd : msg.command ≠ aWrte)
    (hsync : msg.command ≠ aSync) :
    Explains e D₀ m.to m (m.d.sendMsg none msg data (some t)) (SameSockets m.d) := by
  rw [sendMsg]
  simp only [getApacket]
  have hstep : Effect e D₀ m _ := .env m m.d.io (m.d.nextPacket + 1)
  refine .of_path (.single hstep) ?_
  refine (sendPacket_explains (m := m.to { m.d with nextPacket := m.d.nextPacket + 1 }) hx
    (.inl hserve) (about_none (by exact hclse) (by exact hechoes _)) hcmd fun hfinal => ?_).mono ?_
  · rw [Apacket.isFinalSync, Bool.and_eq_true, decide_eq_true_eq] at hfinal
    exact absurd hfinal.1 hsync
  · rintro D' - rfl
    refine ⟨Quiet.trans ?_ (sent_quiet (D := { m.d with nextPacket := m.d.nextPacket + 1 }) hx),
      rfl, rfl, rfl⟩
    exact ⟨rfl, rfl, rfl, rfl, rfl, rfl, rfl, fun _ => rfl⟩

/-- `send_connect`. -/
lemma sendConnect_explains (hx : m.d.transports t = some x)
    (hserve : ∃ q, m.handling = some (t, q)) (hechoes : ∀ q, m.Echoes t q) :
    Explains e D₀ m.to m (m.d.sendConnect t) fun _ => True := by
  rw [sendConnect]
  split
  · exact ⟨m, .refl, trivial⟩
  · refine (sendMsg_explains hx hserve hechoes (fun hclse => ?_)
      (show aCnxn ≠ aWrte by decide) (show aCnxn ≠ aSync by decide)).mono fun _ _ _ => trivial
    exact absurd hclse (show aCnxn ≠ aClse by decide)

/-- `send_auth_request`. -/
lemma sendAuthRequest_explains (hx : m.d.transports t = some x)
    (hserve : ∃ q, m.handling = some (t, q)) (hechoes : ∀ q, m.Echoes t q) :
    Explains e D₀ m.to m (m.d.sendAuthRequest t) fun _ => True := by
  rw [sendAuthRequest]
  cases m.d.io.token with
  | none => exact .ok .refl trivial
  | some token =>
    simp only
    split
    case isFalse => exact .ok .refl trivial
    case isTrue =>
      rw [modifyT_bind hx]
      have htweak : Effect e D₀ m _ := .tweak m t x { x with token := token } hx rfl
      refine .of_path (.single htweak) ?_
      refine (sendMsg_explains (m := m.to (m.d.setTransport t { x with token := token }))
        (setTransport_self ..) hserve hechoes (fun hclse => ?_)
        (show aAuth ≠ aWrte by decide) (show aAuth ≠ aSync by decide)).mono fun _ _ _ => trivial
      exact absurd hclse (show aAuth ≠ aClse by decide)

/-! ## `A_SYNC` and `A_CNXN` -/

lemma handleSync_explains (h : Received e D₀ m t x p) (hcmd : p.msg.command = aSync) :
    Explains e D₀ m.spent m (m.d.handleSync p t) fun D' =>
      m.d.config.host = false → .sent t none (stamp p) ∈ D'.trace := by
  have hwrte : p.msg.command ≠ aWrte := by
    rw [hcmd]
    decide
  have hclse : p.msg.command ≠ aClse := by
    rw [hcmd]
    decide
  have hecho : m.Echoes t (stamp p) := by
    intro u q hserve _ _
    rw [h.handling] at hserve
    cases hserve
    exact ⟨rfl, rfl⟩
  refine spend_explains ?_
  rw [handleSync]
  split
  case isTrue harg =>
    have hfinal : p.isFinalSync = false := by
      simp [Apacket.isFinalSync, harg]
    refine Explained.bind (sendPacket_explains h.alive h.maySend
      (about_none (fun hc => absurd hc hclse) hecho) hwrte fun hf => ?_) ?_
    · rw [hfinal] at hf
      cases hf
    rintro D' - rfl
    split
    case isTrue hhost =>
      refine Explained.mono (Q := fun _ => True) ?_ fun _ _ _ hno =>
        absurd (hhost.symm.trans hno) (by decide)
      refine (sendConnect_explains (m := m.to _) (setTransport_self ..) ⟨_, h.handling⟩
        fun q u r _ _ hno => ?_)
      exact absurd (hhost.symm.trans hno) (by decide)
    case isFalse => exact .ok .refl fun _ => List.mem_cons_self
  case isFalse harg =>
    have hoff : Effect e D₀ m _ := .offline m t x h.alive
    rw [modifyT_bind h.alive]
    refine .of_path (.single hoff) ?_
    refine Explained.bind (handleOffline_explains
      (m := m.to (m.d.setTransport t { x with connectionState := .offline })) (hoff.wf h.wf)
      h.orphans h.draining (setTransport_self ..)) fun D' _ hD' => ?_
    have hx' : D'.transports t = some
        { x with connectionState := .offline, online := false, disconnects := [] } := by
      rw [hD'.transports]
      exact update_self ..
    refine (sendPacket_explains (m := m.to D') hx' (.inl ⟨_, h.handling⟩)
      (about_none (fun hc => absurd hc hclse) fun u q hserve hs hno => ?_) hwrte
      fun hf => ⟨p, h.handling, hf, rfl, rfl⟩).mono ?_
    · exact hecho u q hserve hs (hD'.config ▸ hno)
    · rintro D'' - rfl -
      exact List.mem_cons_self

/-- The end of the case `A_CNXN`: the banner is read, then the host is greeted or asked. -/
lemma greet_explains (hp : m.handling = some (t, some p)) (hcmd : p.msg.command ≠ aSync)
    (hx : m.d.transports t = some x) :
    Explains e D₀ m.to m (do
      let banner ← cstr p.data
      let D ← m.d.modifyT t (parseBanner banner)
      if D.config.host || !D.config.authEnabled then do
        let D ← D.handleOnline t
        if D.config.host then pure D else D.sendConnect t
      else D.sendAuthRequest t) fun _ => True := by
  have hechoes : ∀ q, m.Echoes t q := fun q => echoes_of_handling hp hcmd
  rw [cstr]
  split
  case isFalse => exact ⟨m, .refl, trivial⟩
  case isTrue =>
    have hbanner : Effect e D₀ m _ := .banner m t x (p.data.takeWhile (· ≠ 0)) hx ⟨p, hp, hcmd⟩
    show Explains e D₀ m.to m (m.d.modifyT t _ >>= _) _
    rw [modifyT_bind hx]
    refine .of_path (.single hbanner) ?_
    set m₁ : Moment := m.to (m.d.setTransport t (parseBanner (p.data.takeWhile (· ≠ 0)) x)) with hm₁
    have hx₁ : m₁.d.transports t = some (parseBanner (p.data.takeWhile (· ≠ 0)) x) :=
      setTransport_self ..
    show Explains e D₀ m₁.to m₁ (if m₁.d.config.host || !m₁.d.config.authEnabled then _ else _) _
    split
    case isTrue hopen =>
      have hup : Effect e D₀ m₁ _ := .up m₁ t _ hx₁ ⟨p, hp, hcmd⟩ hopen
      rw [handleOnline, modifyT_bind (D := m.d.setTransport t _) hx₁]
      refine .of_path (.single hup) ?_
      split
      · exact .ok .refl trivial
      · exact sendConnect_explains (m := m₁.to _) (setTransport_self ..) ⟨_, hp⟩ hechoes
    case isFalse => exact sendAuthRequest_explains hx₁ ⟨_, hp⟩ hechoes

lemma handleCnxn_explains (h : Received e D₀ m t x p) (hcmd : p.msg.command = aCnxn) :
    Explains e D₀ m.spent m (m.d.handleCnxn p t) fun _ => True := by
  have hsync : p.msg.command ≠ aSync := by
    rw [hcmd]
    decide
  refine spend_explains ?_
  rw [handleCnxn, derefT_bind h.alive]
  split
  case isTrue =>
    have hoff : Effect e D₀ m _ := .offline m t x h.alive
    rw [modifyT_bind h.alive]
    refine .of_path (.single hoff) ?_
    refine Explained.bind (handleOffline_explains
      (m := m.to (m.d.setTransport t { x with connectionState := .offline })) (hoff.wf h.wf)
      h.orphans h.draining (setTransport_self ..)) fun D' _ hD' => ?_
    have hx' : D'.transports t = some
        { x with connectionState := .offline, online := false, disconnects := [] } := by
      rw [hD'.transports]
      exact update_self ..
    exact greet_explains (m := m.to D') h.handling hsync hx'
  case isFalse => exact greet_explains h.handling hsync h.alive

/-! ## `A_AUTH` -/

/-- The end of `adb_auth_confirm_key`: wait for the framework's answer. -/
lemma awaitAnswer_explains {n : ℕ} (hconfirm : ∀ L M,
      m.d.loop.fdeventInstall (.auth t) n = .ok L → L.fdeventAdd (.auth t) fdeRead = .ok M →
      Effect e D₀ m { m with d := { m.d.emit (.confirm t) with loop := M } }) :
    Explains e D₀ m.to m (do
      let D ← (m.d.emit (.confirm t)).onLoop (Loop.fdeventInstall (.auth t) n)
      D.onLoop (Loop.fdeventAdd (.auth t) fdeRead)) fun _ => True := by
  rw [onLoop]
  show Explains e D₀ m.to m ((Loop.fdeventInstall (.auth t) n m.d.loop >>= _) >>= _) _
  rw [bind_assoc]
  cases hL : Loop.fdeventInstall (.auth t) n m.d.loop with
  | error r =>
    have hr := Loop.fdeventInstall_error hL
    subst hr
    exact ⟨m, .refl, trivial⟩
  | ok L =>
    show Explains e D₀ m.to m (L.fdeventAdd (.auth t) fdeRead >>= _) _
    cases hM : L.fdeventAdd (.auth t) fdeRead with
    | error r => exact ⟨m, .refl, stopsAt_epollCtl hM⟩
    | ok M => exact .ok (.single (hconfirm L M hL hM)) trivial

/-- `adb_auth_confirm_key`. -/
lemma adbAuthConfirmKey_explains (h : Received e D₀ m t x p) (hcmd : p.msg.command = aAuth)
    (harg : p.msg.arg0 = adbAuthRsapublickey) :
    Explains e D₀ m.to m (m.d.adbAuthConfirmKey p t) fun _ => True := by
  rw [adbAuthConfirmKey]
  cases hn : m.d.frameworkFd with
  | none => exact .ok .refl trivial
  | some n =>
    simp only
    split
    · exact .ok .refl trivial
    case isFalse hkey =>
      rw [not_not] at hkey
      cases hstr : cstr p.data with
      | error r =>
        rw [cstr] at hstr
        split at hstr
        · cases hstr
        · cases hstr
          exact ⟨m, .refl, trivial⟩
      | ok key =>
        show Explains e D₀ m.to m (if _ then _ else _) _
        split
        · exact .ok .refl trivial
        case isFalse hlen =>
          rw [h.writes]
          rcases hw : writeSome (str "PK" ++ key) e.io.writes with ⟨res, ws⟩
          have henv : Effect e D₀ m _ := .env m { m.d.io with writes := ws } m.d.nextPacket
          refine .of_path (.single henv) ?_
          cases res with
          | none => exact .ok .refl trivial
          | some out =>
            have hfwd : Forwards e D₀ t := by
              refine ⟨p, key, h.handles, hcmd, harg, ?_, hkey, hstr, Nat.lt_of_not_le hlen, ?_⟩
              · rw [← h.framework, hn]
                rfl
              · rw [hw]
                rfl
            have hhist : authHistory m.d.trace = authHistory D₀.trace := by
              rw [h.trace]
              rfl
            exact awaitAnswer_explains (m := m.to (m.d.setWrites ws)) fun L M hL hM =>
              .confirm _ t n p L M h.handling (by rw [hcmd]; decide) hn hfwd hhist hL hM

/-- The case `A_AUTH`. -/
lemma handleAuth_explains (h : Received e D₀ m t x p) (hcmd : p.msg.command = aAuth) :
    Explains e D₀ m.spent m (m.d.handleAuth p t) fun _ => True := by
  have hsync : p.msg.command ≠ aSync := by
    rw [hcmd]
    decide
  refine spend_explains ?_
  rw [handleAuth]
  split
  · -- a token is answered with a packet that is put back at once
    refine .ok ((ReflTransGen.single (.env m m.d.io (m.d.nextPacket + 1))).tail ?_) trivial
    exact .note (m.to { m.d with nextPacket := m.d.nextPacket + 1 }) (.put m.d.nextPacket) trivial
  split
  · rw [derefT_bind h.alive, adbAuthVerify]
    simp only [Bool.false_eq_true, if_false]
    rw [modifyT_bind h.alive]
    have htweak : Effect e D₀ m _ := .tweak m t x
      { x with failedAuthAttempts := x.failedAuthAttempts + 1 } h.alive rfl
    refine .of_path (.single htweak) ?_
    exact sendAuthRequest_explains (m := m.to (m.d.setTransport t _)) (setTransport_self ..)
      ⟨_, h.handling⟩ fun q => echoes_of_handling h.handling hsync
  split
  case isTrue harg => exact adbAuthConfirmKey_explains h hcmd harg
  case isFalse => exact .ok .refl trivial

/-! ## `A_OPEN` and `A_OKAY` -/

/-- A socket just created is paired, its stream announced, and its first `ready` called. -/
lemma openStream_explains (h : Received e D₀ m t x p) (hcmd : p.msg.command = aOpen)
    (hon : x.online = true) {D : Daemon} (hwf : Wf (m.withOrphan a D))
    (hcreated : Created m.d a D) :
    Explains e D₀ m.spent (m.withOrphan a D) (do
      let (r, D) ← D.pairRemote a p.msg.arg0 t
      let D := D.emit (.opened r a)
      let s ← D.deref a
      let q ← D.deref r
      let D ← D.sendReady (some r) s.id q.id t
      D.ready a) fun _ => True := by
  obtain ⟨s, hs, hp, hc, hq, hlocal, hfde⟩ := hcreated.live
  have hne : a ≠ D.nextAddr := Nat.ne_of_lt (hwf.peers.fresh a s hs)
  have hx : D.transports t = some x := by
    rw [hcreated.transports]
    exact h.alive
  have hserving : (m.withOrphan a D).Serving t :=
    h.serving (by rw [hcmd]; decide)
  have hin : s.ops.isFd = true → D.loop.Installed (.socket a) := by
    intro hfd
    rw [Loop.Installed, (hfde hfd).1]
    decide
  have hsilent : s.ops.isFd = true → has (D.loop.mem (.socket a)).state fdeRead = false := by
    intro hfd
    rw [(hfde hfd).1]
    decide
  have hfresh : Fresh D₀ (m.withOrphan a D) a s := by
    refine ⟨Set.mem_insert .., h.owed, ?_, hq, hfde, t, p, ?_⟩
    · rw [hcreated.addr, h.nextAddr]
    · show D.trace = _
      rw [hcreated.trace, h.trace]
  have hpair : Effect e D₀ (m.withOrphan a D) _ := .pair _ a s p.msg.arg0 t x hs hp hc
    hcreated.list hin (fun _ => hsilent) hx hserving hon true fun _ => hfresh
  set D₂ : Daemon := (D.paired a s p.msg.arg0 t x).emit (.opened D.nextAddr a) with hD₂
  set m₂ : Moment := { m.withOrphan a D with
    d := D₂
    orphans := (m.withOrphan a D).orphans \ {a}
    credit := some s.id
    owed := some a } with hm₂
  have hs₂ : D₂.sockets a = some { s with peer := some D.nextAddr } := update_self ..
  have hr₂ : D₂.sockets D.nextAddr = some
      { ops := .remote, id := p.msg.arg0, transport := some t, peer := some a } :=
    (update_of_ne hne.symm ..).trans (update_self ..)
  have ha₂ : a ∉ m₂.orphans := fun hmem => hmem.2 rfl
  rw [pairRemote_eq hs hx hne]
  refine .of_path (.single hpair) ?_
  show Explains e D₀ m.spent m₂ (D₂.deref a >>= _) _
  rw [deref_bind hs₂, deref_bind hr₂]
  simp only
  have hready : Explains e D₀ m₂.paid m₂ (D₂.sendReady _ s.id p.msg.arg0 t) _ :=
    sendOkay_explains (s := { s with peer := some D.nextAddr }) hs₂ ha₂ rfl hr₂ rfl
      (update_self ..) (.inl ⟨_, h.handling⟩) rfl (.inl ⟨rfl, rfl⟩)
  refine Explained.bind hready fun D₃ hpath hD₃ => ?_
  have hwf₃ : Wf (m₂.paid D₃) := wf_of_path hpath (hpair.wf hwf)
  have hs₃ : D₃.sockets a = some { s with peer := some D.nextAddr } := by
    rw [hD₃.sockets]
    exact hs₂
  have hend : (m₂.paid D₃).spent = m.spent := by
    funext D'
    simp only [Moment.spent, Moment.paid, hm₂, Moment.withOrphan, h.owed, h.orphans]
    simp
  have hlast : Explains e D₀ _ (m₂.paid D₃) (D₃.ready a) fun _ => True :=
    ready_explains hwf₃ hs₃ ha₂ hlocal rfl rfl
  rw [hend] at hlast
  exact hlast

/-- The case `A_OPEN`. -/
lemma handleOpen_explains (h : Received e D₀ m t x p) (hcmd : p.msg.command = aOpen) :
    Explains e D₀ m.spent m (m.d.handleOpen p t) fun _ => True := by
  rw [handleOpen, derefT_bind h.alive]
  split
  · exact .ok (.single (.forget m)) trivial
  case isFalse hon =>
    rw [Bool.not_eq_false] at hon
    refine Explained.bind (createLocalServiceSocket_explains h.wf h.nextId) ?_
    rintro ⟨sock, D⟩ hpath hD
    cases sock with
    | none =>
      have hx : D.transports t = some x := by
        obtain ⟨U, O, I, hopen⟩ := hD.none rfl
        rw [show D = _ from hopen]
        exact h.alive
      have hnote : Effect e D₀ (m.to D) _ := .note _ (.refused t p.msg.arg0) trivial
      refine .of_path (.single hnote) (spend_explains ?_)
      refine (sendMsg_explains (m := m.to (D.emit _)) hx ⟨_, h.handling⟩
        (fun q => echoes_of_handling h.handling (by rw [hcmd]; decide))
        (fun _ => List.mem_cons_self) (show aClse ≠ aWrte by decide)
        (show aClse ≠ aSync by decide)).mono fun _ _ _ => trivial
    | some a =>
      exact openStream_explains h hcmd hon (wf_of_path hpath h.wf) (hD.created a rfl)

/-- The case `A_OKAY`. -/
lemma handleOkay_explains (h : Received e D₀ m t x p) (hcmd : p.msg.command = aOkay) :
    Explains e D₀ m.spent m (m.d.handleOkay p t) fun _ => True := by
  rw [handleOkay, derefT_bind h.alive]
  split
  · exact .ok (.single (.forget m)) trivial
  case isFalse hon =>
    rw [Bool.not_eq_false] at hon
    rcases Option.eq_none_or_eq_some (m.d.findLocalSocket p.msg.arg1) with hfind | ⟨a, hfind⟩
    · rw [hfind]
      exact .ok (.single (.forget m)) trivial
    rw [hfind]
    have hl : a ∈ m.d.localSocketList := List.mem_of_find?_eq_some hfind
    obtain ⟨s, hs, hc, hlocal⟩ := h.wf.peers.listed a hl
    have hid : s.id = p.msg.arg1 := by
      have := List.find?_some hfind
      rw [hs, Option.any_some] at this
      exact of_decide_eq_true this
    simp only
    rw [deref_bind hs]
    split
    case isTrue hp =>
      have hne : a ≠ m.d.nextAddr := Nat.ne_of_lt (h.wf.peers.fresh a s hs)
      have hpair : Effect e D₀ m _ := .pair _ a s p.msg.arg0 t x hs hp hc hl
        (fun hfd => h.wf.loop.installed a s (h.not_orphan a) hs hfd)
        (fun ha => absurd ha (h.not_orphan a)) h.alive (h.serving (by rw [hcmd]; decide)) hon
        false fun hno => by cases hno
      rw [pairRemote_eq hs h.alive hne]
      refine .of_path (.single hpair) ?_
      set m₂ : Moment := { m with
        d := m.d.paired a s p.msg.arg0 t x
        orphans := m.orphans \ {a}
        credit := some s.id } with hm₂
      have hend : m₂.spent = m.spent := by
        funext D'
        simp only [Moment.spent, hm₂, h.orphans]
        simp
      have hlast : Explains e D₀ _ m₂ (m₂.d.ready a) fun _ => True :=
        ready_explains (hpair.wf h.wf) (update_self ..) (fun ha => ha.2 rfl) hlocal rfl rfl
      rw [hend] at hlast
      exact hlast
    case isFalse hp =>
      obtain ⟨r, hr⟩ := Option.ne_none_iff_exists'.mp hp
      exact ready_explains h.wf hs (h.not_orphan a) hlocal hr ((h.credit hcmd).trans
        (congrArg some hid.symm))

/-! ## `A_CLSE` and `A_WRTE` -/

/-- A socket in the list, as it was before the step. -/
lemma Received.closesLocal (h : Received e D₀ m t x p) (hs : m.d.sockets a = some s)
    (hcloses : ClosesLocal e D₀ a s) (r : Addr) (q : Asocket) (hp : s.peer = some r)
    (hq : m.d.sockets r = some q) (hrem : q.ops = .remote) : LocalClose e D₀ :=
  ⟨a, s, r, q, h.sockets ▸ hs, hp, h.sockets ▸ hq, hrem, hcloses⟩

/-- The case `A_CLSE`. -/
lemma handleClse_explains (h : Received e D₀ m t x p) (hcmd : p.msg.command = aClse) :
    Explains e D₀ m.spent m (m.d.handleClse p t) fun _ => True := by
  refine spend_explains ?_
  rw [handleClse, derefT_bind h.alive]
  split
  · exact .ok .refl trivial
  case isFalse hon =>
    rw [Bool.not_eq_false] at hon
    rcases Option.eq_none_or_eq_some (m.d.findLocalSocket p.msg.arg1) with hfind | ⟨a, hfind⟩
    · rw [hfind]
      exact .ok .refl trivial
    rw [hfind]
    obtain ⟨s, hs, hc, -⟩ := h.wf.peers.listed a (List.mem_of_find?_eq_some hfind)
    exact (close_explains h.wf hs (h.not_orphan a)
      (fun hcl => absurd (hc.symm.trans hcl) (by decide))
      (h.closesLocal hs (.clse t p (h.reaches hon hfind) hcmd))).mono fun _ _ _ => trivial

/-- The answer to an `A_WRTE` whose payload has been written, or put in a queue that was
written. -/
lemma acknowledge_explains (h : Received e D₀ m t x p) (hcmd : p.msg.command = aWrte)
    (hs : m.d.sockets a = some s) (hreach : Reaches e D₀ t p a) {D : Daemon}
    (hsock : D.sockets = m.d.sockets) (htr : D.transports = m.d.transports) :
    Explains e D₀ m.to { m with d := D, owed := some a }
      (D.sendReady (m.d.remoteOf s) s.id p.msg.arg0 t) fun _ => True := by
  have hsD : D.sockets a = some s := by
    rw [hsock]
    exact hs
  have hxD : D.transports t = some x := by
    rw [htr]
    exact h.alive
  have hend : Moment.paid { m with d := D, owed := some a } = m.to := by
    funext D'
    simp only [Moment.paid, Moment.to, h.owed]
  rcases Option.eq_none_or_eq_some (m.d.remoteOf s) with hno | ⟨r, hr⟩
  · -- no stream to answer on behalf of
    rw [hno]
    have hwaive : Effect e D₀ { m with d := D, owed := some a } _ := .waive _ a s hsD rfl <| by
      intro r q hp hq hrem
      rw [remoteOf, hp] at hno
      have := Option.filter_eq_none_iff.mp hno r rfl
      rw [← hsock, hq, Option.any_some, hrem] at this
      exact this rfl
    have hwaived : ({ m with d := D, owed := none } : Moment) = m.to D := by
      simp only [Moment.to, h.owed]
    refine .of_path (.single hwaive) ?_
    show Explains e D₀ m.to { m with d := D, owed := none } _ _
    rw [hwaived]
    refine (sendMsg_explains (m := m.to D) hxD ⟨_, h.handling⟩
      (fun q => echoes_of_handling h.handling (by rw [hcmd]; decide))
      (fun hclse => absurd hclse (show aOkay ≠ aClse by decide)) (show aOkay ≠ aWrte by decide)
      (show aOkay ≠ aSync by decide)).mono fun _ _ _ => trivial
  · rw [hr]
    rw [remoteOf, Option.filter_eq_some_iff] at hr
    obtain ⟨hp, hany⟩ := hr
    obtain ⟨q, hq, hrem⟩ := (Option.any_eq_true _ _).mp hany
    have hrem : q.ops = .remote := of_decide_eq_true hrem
    have hqD : D.sockets r = some q := by
      rw [hsock]
      exact hq
    have hdest : p.msg.arg0 = q.id ∧ q.transport = some t ∨
        Misaddressed e D₀ ∧ m.Serving t := by
      by_cases hto : q.id = p.msg.arg0 ∧ q.transport = some t
      · exact .inl ⟨hto.1.symm, hto.2⟩
      · exact .inr ⟨⟨t, p, a, s, r, q, hreach, hcmd, h.sockets ▸ hs, hp, h.sockets ▸ hq, hrem, hto⟩,
          h.serving (by rw [hcmd]; decide)⟩
    have hokay : Explains e D₀ _ { m with d := D, owed := some a }
        (D.sendReady (some r) s.id p.msg.arg0 t) _ :=
      sendOkay_explains hsD (h.not_orphan a) hp hqD hrem hxD (.inl ⟨_, h.handling⟩) rfl hdest
    rw [hend] at hokay
    exact hokay.mono fun _ _ _ => trivial

/-- The case `A_WRTE`. -/
lemma handleWrte_explains (h : Received e D₀ m t x p) (hcmd : p.msg.command = aWrte) :
    Explains e D₀ (fun r => m.spent r.2) m (m.d.handleWrte p t) fun _ => True := by
  rw [handleWrte, derefT_bind h.alive]
  split
  · exact .ok (.single (.forget m)) trivial
  case isFalse hon =>
    rw [Bool.not_eq_false] at hon
    rcases Option.eq_none_or_eq_some (m.d.findLocalSocket p.msg.arg1) with hfind | ⟨a, hfind⟩
    · rw [hfind]
      exact .ok (.single (.forget m)) trivial
    rw [hfind]
    have hl : a ∈ m.d.localSocketList := List.mem_of_find?_eq_some hfind
    obtain ⟨s, hs, -, -⟩ := h.wf.peers.listed a hl
    have hreach := h.reaches hon hfind
    simp only
    rw [deref_bind hs]
    refine Explained.bind (enqueueListed_explains h.wf h.orphans hl h.owed hreach hcmd h.trace
      h.sockets h.writes) ?_
    rintro ⟨r, D⟩ - hD
    simp only
    split
    case isTrue hr =>
      subst hr
      obtain ⟨hsock, -, -, htr⟩ := hD.done rfl
      have hmoment : m.owing a (0, D) = { m with d := D, owed := some a } := if_pos rfl
      rw [hmoment]
      refine Explained.bind (acknowledge_explains h hcmd hs hreach hsock htr) ?_
      intro D' _ _
      exact .ok (.single (.forget _)) trivial
    case isFalse hr =>
      have hmoment : m.owing a (r, D) = m.to D := if_neg hr
      rw [hmoment]
      exact .ok (.single (.forget _)) trivial

/-! ## `handle_packet` -/

/-- The packet is put back, and done with. -/
lemma putBack_explains {z : Except Stop Daemon}
    (h : Explains e D₀ m.spent m z fun _ => True) :
    Explains e D₀ m.spent m (z >>= fun D => pure (D.putApacket p)) fun _ => True :=
  Explained.bind h fun D _ _ => .ok (.single (.note (m.spent D) (.put p.addr) trivial)) trivial

/-- `handle_packet`, after the packet has come in. -/
lemma handleReceived_explains (h : Received e D₀ m t x p) {D : Daemon}
    (hD : D.emit (.received t p) = m.d) :
    Explains e D₀ m.spent m (D.handlePacket p t) fun D' => p.msg.command = aSync →
      m.d.config.host = false → .sent t none (stamp p) ∈ D'.trace := by
  rw [handlePacket]
  simp only [hD]
  split
  case isTrue hcmd => exact (handleSync_explains h hcmd).mono fun _ _ hsent _ => hsent
  case isFalse hsync =>
  -- anything else echoes nothing
  refine Explained.mono (Q := fun _ => True) ?_ fun _ _ _ hcmd => absurd hcmd hsync
  split
  case isTrue hcmd => exact putBack_explains (handleCnxn_explains h hcmd)
  split
  case isTrue hcmd => exact putBack_explains (handleAuth_explains h hcmd)
  split
  case isTrue hcmd => exact putBack_explains (handleOpen_explains h hcmd)
  split
  case isTrue hcmd => exact putBack_explains (handleOkay_explains h hcmd)
  split
  case isTrue hcmd => exact putBack_explains (handleClse_explains h hcmd)
  split
  case isTrue hcmd =>
    refine Explained.bind (handleWrte_explains h hcmd) ?_
    rintro ⟨mine, D⟩ - -
    simp only
    split
    · exact .ok (.single (.note (m.spent D) (.put p.addr) trivial)) trivial
    · exact .ok .refl trivial
  case isFalse =>
    exact .ok ((ReflTransGen.single (.note m (.put p.addr) trivial)).tail (.forget _)) trivial

/-- `transport_socket_events`. -/
lemma transportSocketEvents_explains {ev : BitVec 16} {rs : List Syscall.ReadResult} (h : Wf m)
    (hX : m.orphans = ∅) (howed : m.owed = none) (hdrain : m.draining = none)
    (hidle : m.handling = none) (hx : m.d.transports t = some x)
    (hdel : D₀.delivered e = some (.transport t, ev, rs)) (hsock : m.d.sockets = D₀.sockets)
    (htr : m.d.transports = D₀.transports) (hlist : m.d.localSocketList = D₀.localSocketList)
    (hnext : m.d.nextAddr = D₀.nextAddr)
    (hid : m.d.localSocketNextId = D₀.localSocketNextId) (hframe : m.d.frameworkFd = D₀.frameworkFd)
    (htrace : m.d.trace = D₀.trace) (hwrites : m.d.io.writes = e.io.writes)
    (hcredit : m.credit = none) :
    Explains e D₀ m.to m (m.d.transportSocketEvents ev t) fun _ => True := by
  rw [transportSocketEvents, derefT_bind hx]
  split
  case isFalse => exact .ok .refl trivial
  case isTrue hev =>
    split
    case isFalse =>
      split
      · exact ⟨m, .refl, trivial⟩
      · exact .ok .refl trivial
    case isTrue =>
    cases hp : x.toMain with
    | nil => exact .ok .refl trivial
    | cons p rest =>
      simp only
      have hreceive : Effect e D₀ m _ := .receive m t x p rest hx hp hidle
      set m₁ : Moment := { m with
        d := (m.d.setTransport t { x with toMain := rest }).emit (.received t p)
        handling := some (t, some p)
        credit := if p.msg.command = aOkay then some p.msg.arg1 else none } with hm₁
      have hrec : Received e D₀ m₁ t { x with toMain := rest } p := by
        refine ⟨hreceive.wf h, hX, howed, hdrain, rfl, setTransport_self .., ?_, ?_, ?_, ?_,
          hsock, hlist, hnext, hid, hframe, hwrites⟩
        · exact ⟨ev, rs, x, rest, hdel, hev, htr ▸ hx, hp⟩
        · intro hon
          rw [← htr, hx]
          exact hon
        · intro hcmd
          exact if_pos hcmd
        · show .received t p :: m.d.trace = _
          rw [htrace]
      have hend : ∀ D, ({ m₁.spent D with handling := none, credit := none } : Moment) =
          m.to D := by
        intro D
        simp only [Moment.spent, Moment.to, hm₁, hidle, hcredit]
      have hhandle := handleReceived_explains hrec
        (D := m.d.setTransport t { x with toMain := rest }) rfl
      refine .of_path (.single hreceive) ?_
      cases hres : (m.d.setTransport t { x with toMain := rest }).handlePacket p t with
      | error r =>
        rw [hres] at hhandle
        exact hhandle
      | ok D =>
        rw [hres] at hhandle
        obtain ⟨hpath, hsent⟩ := hhandle
        have hfinish := @Effect.finish e D₀ (m₁.spent D) fun u q hserve hcmd hhost => by
          cases hserve
          rw [config_of_path hpath] at hhost
          exact hsent hcmd hhost
        rw [hend] at hfinish
        exact ⟨hpath.tail hfinish, trivial⟩

/-! ## The framework -/

/-- `adb_auth_verified`, for the framework's `OK`. -/
lemma adbAuthVerified_explains (hidle : m.handling = none) (hcredit : m.credit = none)
    (hx : m.d.transports t = some x) (hok : FrameworkOk e D₀ t) :
    Explains e D₀ m.to m (m.d.adbAuthVerified t) fun _ => True := by
  have hverified : Effect e D₀ m _ := .verified m t x hx hidle hok
  set m₁ : Moment := { m with
    d := (m.d.emit (.verified t)).setTransport t { x with online := true }
    handling := some (t, none) } with hm₁
  rw [adbAuthVerified, handleOnline, modifyT_bind (D := m.d.emit (.verified t)) hx]
  have hsend : Explains e D₀ m₁.to m₁ (m₁.d.sendConnect t) fun _ => True :=
    sendConnect_explains (setTransport_self ..) ⟨_, rfl⟩ fun q u r hserve => by cases hserve
  refine .of_path (.single hverified) ?_
  show Explains e D₀ m.to m₁ (m₁.d.sendConnect t) _
  cases hres : m₁.d.sendConnect t with
  | error r =>
    rw [hres] at hsend
    exact hsend
  | ok D =>
    rw [hres] at hsend
    have hfinish := @Effect.finish e D₀ (m₁.to D) fun u q hserve => by cases hserve
    have hend : ({ m₁.to D with handling := none, credit := none } : Moment) = m.to D := by
      simp only [Moment.to, hm₁, hidle, hcredit]
    rw [hend] at hfinish
    exact ⟨hsend.1.tail hfinish, trivial⟩

/-- `adb_auth_event`. -/
lemma adbAuthEvent_explains {ev : BitVec 16} (hidle : m.handling = none)
    (hcredit : m.credit = none) (hx : m.d.transports t = some x)
    (hdel : D₀.delivered e = some (.auth t, ev, m.d.io.reads)) :
    Explains e D₀ m.to m (m.d.adbAuthEvent ev t) fun _ => True := by
  rw [adbAuthEvent]
  split
  case isFalse => exact .ok .refl trivial
  case isTrue hev =>
    rcases hread : readSome 2 m.d.io.reads with ⟨res, rs⟩
    have henv : Effect e D₀ m (m.to (m.d.setReads rs)) :=
      .env m { m.d.io with reads := rs } m.d.nextPacket
    refine .of_path (.single henv) ?_
    cases res with
    | none =>
      simp only
      rw [derefT_bind (D := m.d.setReads rs) hx]
      refine Explained.bind
        (p := fun D => m.to { D.emit (.authDropped t) with frameworkFd := none })
        (Q := fun _ => True)
        (onLoop_explains (fun L hL => ⟨.single (.authDropped _ t L hL), trivial⟩)
          fun r hr => stopsAt_fatalFd hr) ?_
      exact fun D _ _ => .ok .refl trivial
    | some response =>
      simp only
      split
      case isTrue hok =>
        refine adbAuthVerified_explains (m := m.to (m.d.setReads rs)) hidle hcredit hx
          ⟨ev, _, hdel, hev, ?_⟩
        rw [hread, hok]
      case isFalse => exact .ok .refl trivial

/-- `adb_auth_listener`. -/
lemma adbAuthListener_explains :
    Explains e D₀ m.to m m.d.adbAuthListener fun _ => True := by
  rw [adbAuthListener, takeFd]
  cases m.d.io.fds with
  | nil => exact .ok .refl trivial
  | cons n fds =>
    simp only [Loop.openFd]
    split
    · exact ⟨m, .refl, trivial⟩
    case isFalse hfree =>
      rw [Bool.not_eq_true] at hfree
      have hconnected : Effect e D₀ m _ := .connected m n hfree
      refine .ok ((ReflTransGen.single hconnected).tail ?_) trivial
      exact .env _ { m.d.io with fds := fds } m.d.nextPacket

end Packet

end Adbd
