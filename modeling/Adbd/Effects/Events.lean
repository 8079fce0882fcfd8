import Adbd.Effects.Data

/-!
# Socket events, as changes

`ready` of every kind of socket and the event function of the sockets with a descriptor, each as
a sequence of elementary changes.

An `A_OKAY` is owed by the socket whose packet has just been written out; calling the peer's
`ready` pays it, if the peer is a stream's remote end.
-/

namespace Adbd

open Function FlagWord Transition Relation Daemon

section Events

variable {e : Event} {D₀ : Daemon} {m : Moment} {a : Addr} {s : Asocket}

/-! ## `ready` -/

/-- The state is the same as far as sockets and the event loop go. -/
structure SameSockets (D D' : Daemon) : Prop where
  quiet : Quiet D D'
  sockets : D'.sockets = D.sockets
  loop : D'.loop = D.loop
  list : D'.localSocketList = D.localSocketList

/-- The moment in which the `A_OKAY` that was owed has been sent. -/
def Moment.paid (m : Moment) (D : Daemon) : Moment := { m with d := D, owed := none }

/-- Sending the `A_OKAY` that is owed to the host of `a`. -/
lemma sendOkay_explains {r : Addr} {q : Asocket} {t : TAddr} {x : Atransport} {id : UInt32}
    (hs : m.d.sockets a = some s) (ha : a ∉ m.orphans) (hp : s.peer = some r)
    (hq : m.d.sockets r = some q) (hops : q.ops = .remote) (hx : m.d.transports t = some x)
    (hmay : m.MaySend t) (howed : m.owed = some a)
    (hdest : id = q.id ∧ q.transport = some t ∨ Misaddressed e D₀ ∧ m.Serving t) :
    Explains e D₀ m.paid m
      (m.d.sendMsg (some r) { command := aOkay, arg0 := s.id, arg1 := id } [] (some t))
      (SameSockets m.d) := by
  rw [sendMsg]
  have hstep : Effect e D₀ m _ := .env m m.d.io (m.d.nextPacket + 1)
  refine .of_path (.single hstep) ?_
  simp only [getApacket]
  rw [← bind_pure (sendPacket ..)]
  refine sendPacket_bind (m := m.to { m.d with nextPacket := m.d.nextPacket + 1 }) rfl rfl rfl rfl
    hx hmay fun hopen => ?_
  have hokay : Effect e D₀ (m.to { m.d with nextPacket := m.d.nextPacket + 1 }) _ :=
    .okay _ a r s q (stamp { addr := m.d.nextPacket, msg :=
      { command := aOkay, arg0 := s.id, arg1 := id } }) t x ha hs hq hp hops hx hmay hopen howed
      rfl rfl hdest
  refine .ok (.single hokay) ⟨Quiet.trans ?_ (sent_quiet
    (D := { m.d with nextPacket := m.d.nextPacket + 1 }) hx), rfl, rfl, rfl⟩
  exact ⟨rfl, rfl, rfl, rfl, rfl, rfl, rfl, fun _ => rfl⟩

/-- `remote_socket_ready`, called for the socket whose host is owed an `A_OKAY`. -/
lemma remoteSocketReady_explains {r : Addr} {q : Asocket} (h : Wf m)
    (hs : m.d.sockets a = some s) (ha : a ∉ m.orphans) (hp : s.peer = some r)
    (hq : m.d.sockets r = some q) (hops : q.ops = .remote) (hback : q.peer = some a)
    (howed : m.owed = some a) :
    Explains e D₀ m.paid m (m.d.remoteSocketReady r) (SameSockets m.d) := by
  obtain ⟨t, x, ht, hx, -⟩ := h.remote_transport hq hops
  rw [remoteSocketReady, deref_bind hq, peerOf_bind hback, deref_bind hs, ht]
  exact sendOkay_explains hs ha hp hq hops hx (maySend_of_remote hq hops ht) howed (.inl ⟨rfl, ht⟩)

/-- The peer of a socket with a descriptor is remote or smart. -/
lemma Wf.peer_kind {p : Addr} (h : Wf m) (hs : m.d.sockets a = some s) (ha : a ∉ m.orphans)
    (hfd : s.ops.isFd = true) (hp : s.peer = some p) :
    ∃ q, m.d.sockets p = some q ∧ q.peer = some a ∧ p ∉ m.orphans ∧
      (q.ops = .remote ∨ q.ops = .smart) := by
  obtain ⟨hpX, q, hq, hback, hpairs⟩ := h.peers.paired a s p ha hs hp
  refine ⟨q, hq, hback, hpX, ?_⟩
  revert hpairs hfd
  cases s.ops <;> cases q.ops <;> simp [SocketOps.pairs, SocketOps.isFd]

/-- The peer's `ready` pays what is owed, if it is remote; a smart socket's does nothing. -/
lemma readyPeer_explains {p : Addr} (h : Wf m) (hs : m.d.sockets a = some s) (ha : a ∉ m.orphans)
    (hfd : s.ops.isFd = true) (hp : s.peer = some p) (howed : m.owed = some a) :
    Explains e D₀ m.paid m (m.d.ready p) (SameSockets m.d) := by
  obtain ⟨q, hq, hback, -, hkind⟩ := h.peer_kind hs ha hfd hp
  rw [ready, deref_bind hq]
  rcases hkind with hops | hops
  · rw [hops]
    exact remoteSocketReady_explains h hs ha hp hq hops hback howed
  · rw [hops]
    refine .ok (.single (.waive m a s hs howed fun r q' hr hq' => ?_))
      ⟨Quiet.refl _, rfl, rfl, rfl⟩
    rw [hp, Option.some.injEq] at hr
    subst hr
    rw [hq, Option.some.injEq] at hq'
    rw [← hq', hops]
    simp

/-- The moment in which the `A_OKAY` has been made use of. -/
def Moment.spent (m : Moment) (D : Daemon) : Moment := { m with d := D, credit := none }

/-- `local_socket_ready` of a socket of a stream, for an `A_OKAY`. -/
lemma localSocketReady_explains {p : Addr} (h : Wf m) (hs : m.d.sockets a = some s)
    (ha : a ∉ m.orphans) (hfd : s.ops.isFd = true) (hp : s.peer = some p)
    (hcredit : m.credit = some s.id) :
    Explains e D₀ m.spent m (m.d.localSocketReady a) fun _ => True := by
  refine onLoop_explains (fun L hL => ⟨.single ?_, trivial⟩) fun r hr => stopsAt_epollCtl hr
  refine .grant m a s _ L hs hfd (h.loop.installed a s ha hs hfd) (Loop.fdeventSet_spec hL) ?_ ?_
    ?_ (by rw [hp]; simp) hcredit
  · rw [Loop.has_add (by decide), h.loop.low a]
    decide
  · rw [Loop.has_add (by decide), show has fdeRead fdeRead = true by decide, Bool.or_true]
  · rw [Loop.has_add (by decide), show has fdeRead fdeWrite = false by decide, Bool.or_false]

/-- `local_socket_ready_notify`. -/
lemma localSocketReadyNotify_explains {p : Addr} (h : Wf m) (hs : m.d.sockets a = some s)
    (ha : a ∉ m.orphans) (hops : s.ops = .fdNotify) (hp : s.peer = some p)
    (hcredit : m.credit = some s.id) :
    Explains e D₀ m.spent m (m.d.localSocketReadyNotify a) fun _ => True := by
  rw [localSocketReadyNotify, deref_bind hs]
  simp only
  generalize writeSome (str "OKAY") _ = written
  obtain ⟨out, ws⟩ := written
  simp only
  have hanswered : Effect e D₀ m _ := .answered m a s hs hops
  set m₁ : Moment := m.to (m.d.setSocket a { s with ops := .fd }) with hm₁
  have hs₁ : m₁.d.sockets a = some { s with ops := .fd } := setSocket_sockets_self ..
  have henv : Effect e D₀ m₁ _ := .env m₁ { m.d.io with writes := ws } m.d.nextPacket
  have hnote : Effect e D₀ _ _ := .note (m₁.to { m₁.d with io := { m.d.io with writes := ws } })
    (.told a (out.getD [])) trivial
  refine .of_path (((ReflTransGen.single hanswered).tail henv).tail hnote) ?_
  exact localSocketReady_explains (hnote.wf (henv.wf (hanswered.wf h))) hs₁ ha rfl hp hcredit

/-- `jdwp_socket_ready`: the list once, and then the end. -/
lemma jdwpSocketReady_explains (h : Wf m) (hs : m.d.sockets a = some s) (ha : a ∉ m.orphans)
    (hops : s.ops = .jdwp) :
    Explains e D₀ m.to m (m.d.jdwpSocketReady a) fun _ => True := by
  rw [jdwpSocketReady, deref_bind hs]
  rcases Option.eq_none_or_eq_some s.peer with hp | ⟨r, hp⟩
  · rw [peerOf, hp]
    exact ⟨_, .refl, trivial⟩
  · obtain ⟨q, hq, hback, hrem, hrX, hne⟩ := h.jdwp_peer hs ha (.inl hops) hp
    obtain ⟨t, x, ht, hx, -⟩ := h.remote_transport hq hrem
    rw [peerOf_bind hp]
    split
    case isTrue hpass =>
      simp only [getApacket]
      have hstep : Effect e D₀ m _ := .env m m.d.io (m.d.nextPacket + 1)
      refine .of_path (.single hstep) ?_
      refine remoteEnqueue_bind (m := m.to { m.d with nextPacket := m.d.nextPacket + 1 }) rfl rfl
        rfl rfl hx hq hq hrem ht hback hs fun hto => ?_
      simp only
      generalize wrtePacket _ s.id q.id = p at hto
      rw [deref_bind (D := (Daemon.setTransport t { x with toInput := x.toInput ++ [p] }
        { m.d with nextPacket := m.d.nextPacket + 1 }).emit (.sent t (some r) p)) hs]
      exact .ok (.single (.wrteJdwp _ a r s q p t x ha hs hops hp hto hpass)) trivial
    case isFalse =>
      exact (closeOther_explains h hq hrX hback (.inl hrem)).mono fun _ _ _ => trivial

/-- `jdwp_tracker_ready`: the list, if there is news. -/
lemma jdwpTrackerReady_explains (h : Wf m) (hs : m.d.sockets a = some s) (ha : a ∉ m.orphans)
    (hops : s.ops = .tracker) :
    Explains e D₀ m.to m (m.d.jdwpTrackerReady a) fun _ => True := by
  rw [jdwpTrackerReady, deref_bind hs]
  split
  · exact .ok .refl trivial
  case isFalse hneed =>
    rw [Bool.not_eq_false] at hneed
    simp only [getApacket]
    rcases Option.eq_none_or_eq_some s.peer with hp | ⟨r, hp⟩
    · rw [peerOf, hp]
      exact ⟨_, .refl, trivial⟩
    · obtain ⟨q, hq, hback, hrem, hrX, hne⟩ := h.jdwp_peer hs ha (.inr hops) hp
      obtain ⟨t, x, ht, hx, -⟩ := h.remote_transport hq hrem
      rw [peerOf_bind hp]
      have hstep : Effect e D₀ m _ := .env m m.d.io (m.d.nextPacket + 1)
      refine .of_path (.single hstep) ?_
      refine remoteEnqueue_bind (m := m.to { m.d with nextPacket := m.d.nextPacket + 1 })
        (s := { s with needUpdate := false }) rfl rfl rfl rfl hx hq
        ((update_of_ne hne ..).trans hq) hrem ht hback (setSocket_sockets_self ..)
        fun hto => ?_
      exact .ok (.single (.wrteTracker _ a r s q _ t x ha hs hops hp ⟨hto.live, hto.remote,
        hto.transport, hto.alive, hto.open_, hto.command, hto.arg0, hto.arg1⟩ hneed)) trivial

/-- `s->ready(s)` of a paired socket in the list, for an `A_OKAY`. -/
lemma ready_explains {p : Addr} (h : Wf m) (hs : m.d.sockets a = some s) (ha : a ∉ m.orphans)
    (hlocal : s.ops.isLocal = true) (hp : s.peer = some p) (hcredit : m.credit = some s.id) :
    Explains e D₀ m.spent m (m.d.ready a) fun _ => True := by
  have hforget : Effect e D₀ m _ := .forget m
  rw [ready, deref_bind hs]
  cases hops : s.ops with
  | fd => exact localSocketReady_explains h hs ha (by rw [hops]; rfl) hp hcredit
  | fdNotify => exact localSocketReadyNotify_explains h hs ha hops hp hcredit
  | jdwp =>
    exact .of_path (.single hforget) (jdwpSocketReady_explains (hforget.wf h) hs ha hops)
  | tracker =>
    exact .of_path (.single hforget) (jdwpTrackerReady_explains (hforget.wf h) hs ha hops)
  | remote => rw [hops] at hlocal; cases hlocal
  | smart => rw [hops] at hlocal; cases hlocal

/-! ## The `FDE_WRITE` branch -/

/-- The `FDE_WRITE` branch goes on: the queue is written, and little else has changed. -/
structure Written (e : Event) (D : Daemon) (a : Addr) (s : Asocket) (D' : Daemon) : Prop where
  quiet : Quiet D D'
  ended : (drain s.pkts e.io.writes).ended = .done
  notClosing : s.closing = false
  sockets : D'.sockets = update D.sockets a (some { s with pkts := [] })
  read : has (D'.loop.mem (.socket a)).state fdeRead = has (D.loop.mem (.socket a)).state fdeRead
  events : has (D.loop.mem (.socket a)).events fdeRead = false →
    has (D'.loop.mem (.socket a)).events fdeRead = false

/-- A socket with a descriptor that has been emptied in part is still paired with the same
remote socket, if with any. -/
lemma peer_of_setSocket {r : Addr} {q z : Asocket} (hfd : z.ops.isFd = true)
    (hq : (m.d.setSocket a z).sockets r = some q) (hrem : q.ops = .remote) :
    m.d.sockets r = some q := by
  by_cases hr : r = a
  · subst hr
    rw [setSocket_sockets_self, Option.some.injEq] at hq
    rw [hq, hrem] at hfd
    cases hfd
  · exact (update_of_ne hr ..).symm.trans hq

/-- The end of the `FDE_WRITE` branch of a socket that is not closing: the queue is empty, and
the peer is told. -/
lemma flushed_explains (os : List Obs) (ws : List Syscall.WriteResult)
    (hos : ∀ o ∈ os, o.isPut = true) (h : Wf m)
    (hs : m.d.sockets a = some s) (ha : a ∉ m.orphans) (hfd : s.ops.isFd = true)
    (hc : s.closing = false) (howed : m.owed = none) (hw : Writes e D₀ a)
    (hbefore : D₀.sockets a = some s) (hended : (drain s.pkts e.io.writes).ended = .done)
    (hevents : has (m.d.loop.mem (.socket a)).events fdeWrite = false) :
    Explains e D₀ (fun r => m.to r.2) m (do
      let D ← Daemon.onLoop (Loop.fdeventDel (.socket a) fdeWrite)
        { m.d.setSocket a { s with pkts := [] } with
          io := { m.d.io with writes := ws }
          trace := os ++ .wrote a s.queued :: m.d.trace }
      let peer ← peerOf a s
      let D ← D.ready peer
      pure (true, D)) fun r => r.1 = true → Written e m.d a s r.2 := by
  have henv : Effect e D₀ m _ := .env m { m.d.io with writes := ws } m.d.nextPacket
  set m₁ : Moment := m.to { m.d with io := { m.d.io with writes := ws } } with hm₁
  refine .of_path (.single henv) ?_
  simp only [onLoop, setSocket]
  cases hdel : Loop.fdeventDel (.socket a) fdeWrite m.d.loop with
  | error r => exact ⟨m₁, .refl, stopsAt_epollCtl hdel⟩
  | ok L =>
    have hspec := Loop.fdeventSet_spec hdel
    have hlow := (Loop.has_del_of_disjoint (x := (m.d.loop.mem (.socket a)).state)
      (show fdeEventMask &&& 0x00fc#16 = 0x00fc#16 by decide)
      (show (fdeWrite &&& fdeEventMask) &&& 0x00fc#16 = 0#16 by decide)).trans (h.loop.low a)
    have hread := Loop.has_del_of_disjoint (x := (m.d.loop.mem (.socket a)).state)
      (show fdeEventMask &&& fdeRead = fdeRead by decide)
      (show (fdeWrite &&& fdeEventMask) &&& fdeRead = 0#16 by decide)
    have hwrite := Loop.has_del_self (x := (m.d.loop.mem (.socket a)).state)
      (show ~~~(fdeWrite &&& fdeEventMask) &&& fdeWrite = 0#16 by decide)
    have hflushed : Effect e D₀ m₁ _ := .flushed m₁ a s _ L ha hs hfd hc
      (h.loop.installed a s ha hs hfd) hspec hlow hread hwrite hevents howed hw hbefore
    have hputs : ReflTransGen (Effect e D₀) _ _ := path_notes (m := { m₁ with
      d := { (m₁.d.setSocket a { s with pkts := [] }).emit (.wrote a s.queued) with loop := L }
      owed := some a }) os hos
    have hpath := (ReflTransGen.single hflushed).trans hputs
    set D₂ : Daemon := { m₁.d.setSocket a { s with pkts := [] } with
      trace := os ++ .wrote a s.queued :: m.d.trace
      loop := L } with hD₂
    have hwf : Wf { m₁ with d := D₂, owed := some a } :=
      wf_of_path hpath (henv.wf h)
    have hs₂ : D₂.sockets a = some { s with pkts := [] } := setSocket_sockets_self ..
    refine .of_path hpath ?_
    show Explains e D₀ _ _ (peerOf a s >>= fun peer => D₂.ready peer >>= fun D =>
      pure (true, D)) _
    rcases Option.eq_none_or_eq_some s.peer with hp | ⟨p, hp⟩
    · rw [peerOf, hp]
      exact ⟨_, .refl, trivial⟩
    · rw [peerOf_bind hp]
      have hready : Explains e D₀ _ { m₁ with d := D₂, owed := some a } (D₂.ready p) _ :=
        readyPeer_explains hwf hs₂ ha hfd hp rfl
      refine Explained.bind hready fun D₃ _ hD₃ => ?_
      have hend : Moment.paid { m₁ with d := D₂, owed := some a } D₃ = m.to D₃ := by
        simp [Moment.paid, Moment.to, hm₁, howed]
      refine .ok (by rw [hend]) fun _ => ⟨Quiet.trans ?_ hD₃.quiet, hended, hc, hD₃.sockets, ?_, ?_⟩
      · exact ⟨rfl, rfl, rfl, rfl, rfl, rfl, authHistory_quiet os _ hos, fun _ => rfl⟩
      · rw [hD₃.loop]
        exact (has_congr hspec.low (by decide)).trans hread
      · intro hno
        rw [hD₃.loop]
        by_contra hyes
        rw [Bool.not_eq_false] at hyes
        rw [hspec.events _ hyes] at hno
        cases hno

/-- The `FDE_WRITE` branch. -/
lemma localSocketWritable_explains (h : Wf m) (hs : m.d.sockets a = some s)
    (ha : a ∉ m.orphans) (hfd : s.ops.isFd = true) (howed : m.owed = none)
    (hw : Writes e D₀ a) (hsock : m.d.sockets = D₀.sockets)
    (hwrites : m.d.io.writes = e.io.writes)
    (hevents : has (m.d.loop.mem (.socket a)).events fdeWrite = false) :
    Explains e D₀ (fun r => m.to r.2) m (m.d.localSocketWritable a) fun r =>
      r.1 = true → Written e m.d a s r.2 := by
  rw [localSocketWritable, deref_bind hs]
  simp only [hwrites]
  obtain ⟨hout, hdone⟩ := drain_spec s.pkts e.io.writes
  have hlen := drain_length s.pkts e.io.writes
  have hstuck := drain_stuck s.pkts e.io.writes
  rcases hd : drain s.pkts e.io.writes with ⟨ps, out, freed, end', ws⟩
  rw [hd] at hout hdone hlen hstuck
  simp only at hout hdone hlen hstuck ⊢
  obtain ⟨os, hos, hput⟩ := putApackets_eq freed (emit (.wrote a out)
    { m.d.setSocket a { s with pkts := ps } with io := { m.d.io with writes := ws } })
  rw [hput]
  have henv : Effect e D₀ m _ := .env m { m.d.io with writes := ws } m.d.nextPacket
  set m₁ : Moment := m.to { m.d with io := { m.d.io with writes := ws } } with hm₁
  set D₁ : Daemon := { m.d.setSocket a { s with pkts := ps } with
    io := { m.d.io with writes := ws }
    trace := os ++ .wrote a out :: m.d.trace } with hD₁
  have hs₁ : D₁.sockets a = some { s with pkts := ps } := setSocket_sockets_self ..
  -- all the code does if it does not go on
  have hdrained : (ps = [] → s.closing = true) → ReflTransGen (Effect e D₀) m (m.to D₁) := by
    intro hleft
    have hwrote : Effect e D₀ m₁ _ := .drained m₁ a s ps out ha hs hfd hout hlen hstuck hleft
    exact (ReflTransGen.single henv).trans ((ReflTransGen.single hwrote).trans (path_notes
      (m := m.to (emit (.wrote a out) { m.d.setSocket a { s with pkts := ps } with
        io := { m.d.io with writes := ws } })) os hos))
  have hpeer : ∀ r q, s.peer = some r → D₁.sockets r = some q → q.ops = .remote →
      D₀.sockets r = some q := by
    intro r q _ hq hrem
    rw [← hsock]
    exact peer_of_setSocket (z := { s with pkts := ps }) hfd hq hrem
  cases end' with
  | again =>
    refine .ok (hdrained fun hnil => ?_) fun hr => by cases hr
    cases hdone.mpr hnil
  | failed =>
    have hpath := hdrained fun hnil => by cases hdone.mpr hnil
    have hfail : Effect e D₀ (m.to D₁) _ := .note _ (.writeFailed a) trivial
    obtain ⟨ev, rs, hdel, hev⟩ := hw
    refine .of_path (hpath.tail hfail) ?_
    have hfails : FailsWrite e D₀ a := ⟨ev, rs, s, hdel, hev, hsock ▸ hs, by rw [hd]⟩
    refine Explained.bind (close_explains (m := (m.to D₁).to _)
      (wf_of_path (hpath.tail hfail) h) hs₁ ha (fun _ => .inr (.inl hfails))
      fun r q hp hq hrem => ?_) fun D' _ _ => ?_
    · refine ⟨a, s, r, q, hsock ▸ hs, hp, hpeer r q hp hq hrem, hrem, .write ev rs hdel hev ?_⟩
      rw [hd]
    · exact .ok .refl fun hr => by cases hr
  | done =>
    have hnil := hdone.mp rfl
    subst hnil
    simp only
    split
    case isTrue hc =>
      have hpath := hdrained fun _ => hc
      have hnone := (h.flushing_only hs ha hc).2
      refine .of_path hpath ?_
      refine Explained.bind (close_explains (m := m.to D₁) (wf_of_path hpath h) hs₁ ha
        (fun _ => .inl rfl) fun r q hp => ?_) fun D' _ _ => ?_
      · have hp : s.peer = some r := hp
        rw [hnone] at hp
        cases hp
      · exact .ok .refl fun hr => by cases hr
    case isFalse hc =>
      rw [Bool.not_eq_true] at hc
      have hqueued : out = s.queued := by
        rw [List.flatMap_nil, List.append_nil] at hout
        exact hout
      have hflush : Explains e D₀ _ m _ _ := flushed_explains os ws hos h hs ha hfd hc howed hw
        (hsock ▸ hs) (by rw [hd]) hevents
      rw [← hqueued] at hflush
      exact hflush

/-! ## The `FDE_READ` branch -/

/-- The `FDE_READ` branch is about to run for the events `ev`, with the read results `rs`; since
the step began, nothing has happened but the `FDE_WRITE` branch. -/
structure Reading (e : Event) (D₀ : Daemon) (m : Moment) (a : Addr) (ev : BitVec 16)
    (rs : List Syscall.ReadResult) (s : Asocket) (ps : List Apacket) : Prop where
  wf : Wf m
  orphans : m.orphans = ∅
  idle : m.handling = none
  delivered : D₀.delivered e = some (.socket a, ev, rs)
  asked : has ev fdeRead = true
  reads : m.d.io.reads = rs
  before : D₀.sockets a = some s
  live : m.d.sockets a = some { s with pkts := ps }
  drained : has ev fdeWrite = true → (drain s.pkts e.io.writes).ended = .done
  flushing : s.closing = true → has ev fdeWrite = false ∧ ps = s.pkts
  left : ps ≠ [] → has ev fdeWrite = false ∧ ps = s.pkts
  same : has ev fdeWrite = false →
    m.d.transports = D₀.transports ∧ m.d.transportList = D₀.transportList
  others : ∀ b, b ≠ a → m.d.sockets b = D₀.sockets b
  isFd : s.ops.isFd = true
  read : has (m.d.loop.mem (.socket a)).state fdeRead =
    has (D₀.loop.mem (.socket a)).state fdeRead
  events : has (m.d.loop.mem (.socket a)).events fdeRead = false

variable {ev : BitVec 16} {rs : List Syscall.ReadResult} {l : List Apacket}

lemma Reading.not_orphan (h : Reading e D₀ m a ev rs s l) : a ∉ m.orphans := by
  rw [h.orphans]
  exact Set.notMem_empty a

/-- An end of file on a socket that is flushing cuts the flush. -/
lemma Reading.cuts (h : Reading e D₀ m a ev rs s l) (heof : (readLoop maxPayload rs).2.1 = true)
    (hc : s.closing = true) : MayFree e D₀ a { s with pkts := l } := by
  obtain ⟨hw, rfl⟩ := h.flushing hc
  by_cases hnil : s.pkts = []
  · exact .inl hnil
  · exact .inr (.inr ⟨ev, rs, s, h.delivered, h.asked, hw, h.before, hc, hnil, heof⟩)

/-- The other sockets are as they were. -/
lemma Reading.remote_before {r : Addr} {q : Asocket} (h : Reading e D₀ m a ev rs s l)
    (hq : m.d.sockets r = some q) (hrem : q.ops = .remote) : D₀.sockets r = some q := by
  have hne : r ≠ a := by
    rintro rfl
    rw [h.live, Option.some.injEq] at hq
    have hfd := h.isFd
    rw [show s.ops = q.ops by rw [← hq], hrem] at hfd
    cases hfd
  rw [← h.others r hne, hq]

/-- An end of file on a socket of a stream closes it from this side. -/
lemma Reading.ends (h : Reading e D₀ m a ev rs s l) (heof : (readLoop maxPayload rs).2.1 = true)
    (r : Addr) (q : Asocket) (hp : s.peer = some r) (hq : m.d.sockets r = some q)
    (hrem : q.ops = .remote) : LocalClose e D₀ :=
  ⟨a, s, r, q, h.before, hp, h.remote_before hq hrem, hrem,
    .read ev rs h.delivered h.asked h.drained heof⟩

/-- Something to read is asked for, or forced. -/
lemma Reading.forces {r : Addr} {q : Asocket} (h : Reading e D₀ m a ev rs s l)
    (hbytes : (readLoop maxPayload rs).1 ≠ []) (hp : s.peer = some r)
    (hq : m.d.sockets r = some q) (hrem : q.ops = .remote) :
    has (m.d.loop.mem (.socket a)).state fdeRead = true ∨ ForcesRead e D₀ a := by
  cases hr : has (m.d.loop.mem (.socket a)).state fdeRead with
  | true => exact .inl rfl
  | false =>
    refine .inr ⟨ev, rs, s, r, h.delivered, h.asked, h.read ▸ hr, h.before, hp, ?_, hbytes⟩
    rw [h.remote_before hq hrem, Option.any_some, hrem]
    rfl

/-- A client that is handed over with packets queued had them before. -/
lemma Reading.handsOver {ss : Addr} {q : Asocket} (h : Reading e D₀ m a ev rs s l) (hl : l ≠ [])
    (hp : s.peer = some ss) (hq : m.d.sockets ss = some q) (hkind : q.ops = .smart)
    (hdone : Completes q (readLoop maxPayload rs).1)
    (hacquire : ∃ t, m.d.acquireOneTransport .any = .ok t) : HandsOver e D₀ a := by
  obtain ⟨hw, rfl⟩ := h.left hl
  obtain ⟨htr, hlist⟩ := h.same hw
  have hne : ss ≠ a := by
    rintro rfl
    rw [h.live, Option.some.injEq] at hq
    have hfd := h.isFd
    rw [show s.ops = q.ops by rw [← hq], hkind] at hfd
    cases hfd
  refine ⟨ev, rs, s, ss, q, h.delivered, h.asked, hw, h.before, hl, hp, ?_, hkind, hdone, ?_⟩
  · rw [← h.others ss hne, hq]
  · rwa [acquireOneTransport_congr htr hlist] at hacquire

/-- Turning the read events off. -/
lemma delRead_spec {L L' : Loop FdeId} (hlow : has (L.mem (.socket a)).state 0x00fc#16 = false)
    (h : L.fdeventDel (.socket a) fdeRead = .ok L') : ∃ ev : BitVec 16,
      Loop.SetSpec (.socket a) ev L L' ∧ has ev 0x00fc#16 = false ∧ has ev fdeRead = false ∧
      has ev fdeWrite = has (L.mem (.socket a)).state fdeWrite := by
  refine ⟨_, Loop.fdeventSet_spec h, ?_, Loop.has_del_self (by decide), ?_⟩
  · rw [Loop.has_del_of_disjoint (by decide) (by decide), hlow]
  · exact Loop.has_del_of_disjoint (by decide) (by decide)

/-- What was read is discarded, and the socket closed at an end of file. -/
lemma readNothing_explains {p : Apacket} {bytes : List UInt8} {eof : Bool} (h : Wf m)
    (hX : m.orphans = ∅) (hs : m.d.sockets a = some s)
    (hmay : eof = true → s.closing = true → MayFree e D₀ a s)
    (hcause : eof = true → ∀ r q, s.peer = some r → m.d.sockets r = some q → q.ops = .remote →
      LocalClose e D₀)
    (hnone : bytes = [] ∨ ∀ r q, s.peer = some r → m.d.sockets r = some q → q.ops ≠ .remote) :
    Explains e D₀ m.to m (if eof then ((m.d.emit (.read a bytes)).putApacket p).close a
      else pure ((m.d.emit (.read a bytes)).putApacket p)) fun _ => True := by
  have ha : a ∉ m.orphans := by
    rw [hX]
    exact Set.notMem_empty a
  have hread : Effect e D₀ m _ := .note m (.read a bytes) ⟨hX, s, hs, hnone⟩
  have hput : Effect e D₀ _ _ := .note (m.to (m.d.emit (.read a bytes))) (.put p.addr) trivial
  refine .of_path ((ReflTransGen.single hread).tail hput) ?_
  split
  case isTrue heof =>
    exact (close_explains (m := m.to ((m.d.emit (.read a bytes)).putApacket p))
      (hput.wf (hread.wf h)) hs ha (fun hc => hmay heof hc) (hcause heof)).mono
      fun _ _ _ => trivial
  case isFalse => exact .ok .refl trivial

/-- What was read goes to a stream. -/
lemma readToRemote_explains {r : Addr} {q : Asocket} {p : Apacket} {eof : Bool} (h : Wf m)
    (hX : m.orphans = ∅) (hs : m.d.sockets a = some s) (hfd : s.ops.isFd = true)
    (hp : s.peer = some r) (hq : m.d.sockets r = some q) (hrem : q.ops = .remote)
    (hlen : p.len = p.data.length) (hmax : p.data.length ≤ maxPayload) (hbytes : p.data ≠ [])
    (hevents : has (m.d.loop.mem (.socket a)).events fdeRead = false)
    (hsub : has (m.d.loop.mem (.socket a)).state fdeRead = true ∨ ForcesRead e D₀ a)
    (hcause : eof = true → LocalClose e D₀) :
    Explains e D₀ m.to m (do
      let (r, D) ← (m.d.emit (.read a p.data)).enqueue r p
      if r < 0 then pure D
      else do
        let D ← (if r = 0 then pure D else D.onLoop (Loop.fdeventDel (.socket a) fdeRead))
        if ((D.loop.mem (.socket a)).forceEof && r = 0) || eof then D.close a else pure D)
      fun _ => True := by
  have ha : a ∉ m.orphans := by
    rw [hX]
    exact Set.notMem_empty a
  obtain ⟨-, q', hq', hback, -⟩ := h.peers.paired a s r ha hs hp
  rw [hq, Option.some.injEq] at hq'
  subst hq'
  obtain ⟨t, x, ht, hx, -⟩ := h.remote_transport hq hrem
  refine remoteEnqueue_bind rfl rfl rfl rfl hx hq hq hrem ht hback hs fun hto => ?_
  have hpay := wrtePacket_payload s.id q.id hlen hmax
  generalize wrtePacket p s.id q.id = w at hto hpay
  have hone : ¬(1 : Int) < 0 := by decide
  have hne : (1 : Int) ≠ 0 := by decide
  simp only [if_neg hone, if_neg hne, onLoop]
  cases hdel : Loop.fdeventDel (.socket a) fdeRead (((m.d.emit (.read a p.data)).setTransport t
      { x with toInput := x.toInput ++ [w] }).emit (.sent t (some r) w)).loop with
  | error st => exact ⟨m, .refl, stopsAt_epollCtl hdel⟩
  | ok L =>
    obtain ⟨ev', hset, hlow, hread, hwrite⟩ := delRead_spec (h.loop.low a) hdel
    have hwrte : Effect e D₀ m _ := .wrteRead m a r s q w t x ev' L ha hs hfd hp hto
      (h.loop.installed a s ha hs hfd) hset hlow hread hwrite hevents hsub
      (by rw [hpay]; exact ⟨hbytes, hmax⟩) hX
    rw [hpay] at hwrte
    refine .of_path (.single hwrte) ?_
    show Explains e D₀ m.to _ (if _ then _ else _) _
    split
    case isTrue heof =>
      refine (closePaired_explains (hwrte.wf h) hs ha hp fun _ _ _ _ _ => hcause ?_).mono
        fun _ _ _ => trivial
      simpa using heof
    case isFalse => exact .ok .refl trivial

/-- What was read goes to a smart socket. -/
lemma readToSmart_explains {ss : Addr} {q : Asocket} {p : Apacket} {bytes : List UInt8}
    {eof : Bool} (h : Wf m) (hX : m.orphans = ∅) (hidle : m.handling = none)
    (hs : m.d.sockets a = some s) (hp : s.peer = some ss)
    (hq : m.d.sockets ss = some q) (hkind : q.ops = .smart)
    (hplen : p.len = bytes.length) (hdata : p.data = bytes)
    (hlate : s.pkts ≠ [] → Completes q bytes → (∃ t, m.d.acquireOneTransport .any = .ok t) →
      HandsOver e D₀ a)
    (hevents : has (m.d.loop.mem (.socket a)).events fdeRead = false) :
    Explains e D₀ m.to m (do
      let (r, D) ← (m.d.emit (.read a bytes)).enqueue ss p
      if r < 0 then pure D
      else do
        let D ← (if r = 0 then pure D else D.onLoop (Loop.fdeventDel (.socket a) fdeRead))
        if ((D.loop.mem (.socket a)).forceEof && r = 0) || eof then D.close a else pure D)
      fun _ => True := by
  have ha : a ∉ m.orphans := by
    rw [hX]
    exact Set.notMem_empty a
  have hsmart : ∀ r q', s.peer = some r → m.d.sockets r = some q' → q'.ops ≠ .remote := by
    intro r q' hr hq'
    rw [hp, Option.some.injEq] at hr
    rw [← hr, hq, Option.some.injEq] at hq'
    rw [← hq', hkind]
    simp
  have hread : Effect e D₀ m _ := .note m (.read a bytes) ⟨hX, s, hs, .inr hsmart⟩
  refine .of_path (.single hread) ?_
  set m₁ : Moment := m.to (m.d.emit (.read a bytes)) with hm₁
  have hwf₁ : Wf m₁ := hread.wf h
  have hclosing := h.paired_open hs ha hp
  rw [enqueue, deref_bind (D := m.d.emit (.read a bytes)) hq, hkind]
  refine Explained.bind (smartSocketEnqueue_explains (m := m₁) hwf₁ ha hs hp hq hkind hidle
    hplen hdata) ?_
  rintro ⟨r, D⟩ hpath hD
  have hwf := wf_of_path hpath hwf₁
  rcases hD.result with hr | hr | hr
  all_goals
    simp only at hr
    subst hr
  · -- the smart socket was closed, and its client with it
    exact .ok .refl trivial
  · obtain ⟨hsD, -, hkeep⟩ := hD.wait rfl
    have hzero : ¬(0 : Int) < 0 := by decide
    simp only [if_neg hzero, if_true, decide_true, Bool.and_true, pure_bind]
    split
    · exact (closePaired_explains (m := m₁.to D) hwf hsD ha hp fun r q' hr hq' hrem =>
        absurd hrem (hkeep r q' hr hq')).mono fun _ _ _ => trivial
    · exact .ok .refl trivial
  · obtain ⟨⟨hcomplete, hacquire⟩, t, hover⟩ := hD.handedOver rfl
    have hacquire' : ∃ t, m.d.acquireOneTransport .any = .ok t := by
      rwa [@acquireOneTransport_congr m.d m₁.d rfl rfl] at hacquire
    have hone : ¬(1 : Int) < 0 := by decide
    have hne : (1 : Int) ≠ 0 := by decide
    simp only [if_neg hone, if_neg hne, onLoop]
    have hmoment : m₁.smart a (1, D) = m₁.withOrphan a D := if_pos rfl
    rw [hmoment] at hwf ⊢
    cases hdel : Loop.fdeventDel (.socket a) fdeRead D.loop with
    | error st => exact ⟨m₁.withOrphan a D, .refl, stopsAt_epollCtl hdel⟩
    | ok L =>
      obtain ⟨ev', hset, hlow, hread, hwrite⟩ := delRead_spec (hwf.loop.low a) hdel
      obtain ⟨-, q', hq', -, hpairs⟩ := h.peers.paired a s ss ha hs hp
      rw [hq, Option.some.injEq] at hq'
      rw [← hq', hkind] at hpairs
      have hops : s.ops.isFd = true := by
        revert hpairs
        cases s.ops <;> simp [SocketOps.pairs, SocketOps.isLocal, SocketOps.isFd]
      have hin : D.loop.Installed (.socket a) := by
        rw [Loop.Installed, hover.mem]
        exact h.loop.installed a s ha hs hops
      have hno : has (D.loop.mem (.socket a)).events fdeRead = false := by
        rw [hover.mem]
        exact hevents
      have hawait : Effect e D₀ (m₁.withOrphan a D) _ := .await _ a _ ev' L hover.live
        (Set.mem_insert ..) rfl rfl hclosing hover.list hin hset hlow hread hno hwrite
        fun hq => hlate hq hcomplete hacquire'
      have hmoment' : ({ m₁.withOrphan a D with
          d := { (m₁.withOrphan a D).d with loop := L }
          orphans := (m₁.withOrphan a D).orphans \ {a} } : Moment) =
          m.to { D with loop := L } := by
        simp only [Moment.withOrphan, Moment.to, hm₁, hX]
        simp
      rw [hmoment'] at hawait
      refine .of_path (.single hawait) ?_
      show Explains e D₀ m.to _ (if _ then _ else _) _
      split
      · refine (close_explains (m := m.to { D with loop := L }) (hawait.wf hwf) hover.live ha
          (fun hc => ?_) fun r q hr => by cases hr).mono fun _ _ _ => trivial
        exact absurd (hclosing.symm.trans hc) (by decide)
      · exact .ok .refl trivial

/-- The `FDE_READ` branch. -/
lemma localSocketReadable_explains (h : Reading e D₀ m a ev rs s l) :
    Explains e D₀ m.to m (m.d.localSocketReadable a) fun _ => True := by
  rw [localSocketReadable]
  simp only [getApacket, h.reads]
  have hcuts := h.cuts
  have hends := h.ends
  have hforces := fun r q => h.forces (r := r) (q := q)
  have hover := fun r q => @Reading.handsOver _ _ _ _ _ _ _ _ r q h
  have hlen := readLoop_length maxPayload rs
  generalize readLoop maxPayload rs = res at hcuts hends hforces hover hlen
  obtain ⟨bytes, eof, rs'⟩ := res
  simp only at hcuts hends hforces hover hlen ⊢
  have henv : Effect e D₀ m _ := .env m { m.d.io with reads := rs' } (m.d.nextPacket + 1)
  set m₁ : Moment := m.to { m.d with
    io := { m.d.io with reads := rs' }
    nextPacket := m.d.nextPacket + 1 } with hm₁
  have hwf : Wf m₁ := henv.wf h.wf
  have hlive : m₁.d.sockets a = some { s with pkts := l } := h.live
  have ha : a ∉ m₁.orphans := h.not_orphan
  rw [deref_bind (D := Daemon.emit (.read a bytes) { m.d with
    io := { m.d.io with reads := rs' }
    nextPacket := m.d.nextPacket + 1 }) hlive]
  refine .of_path (.single henv) ?_
  have hnothing : (bytes = [] ∨ ∀ r q, s.peer = some r → m₁.d.sockets r = some q →
      q.ops ≠ .remote) → Explains e D₀ m₁.to m₁
      (if eof then ((m₁.d.emit (.read a bytes)).putApacket { addr := m.d.nextPacket }).close a
        else pure ((m₁.d.emit (.read a bytes)).putApacket { addr := m.d.nextPacket }))
      fun _ => True :=
    readNothing_explains (m := m₁) (s := { s with pkts := l }) hwf h.orphans hlive
      hcuts
      fun heof r q hp hq hrem => hends heof r q hp hq hrem
  rcases Option.eq_none_or_eq_some s.peer with hp | ⟨peer, hp⟩
  · simp only [hp]
    refine hnothing (.inr fun r q hr => ?_)
    rw [hp] at hr
    cases hr
  · simp only [hp]
    split
    case isTrue hbytes => exact hnothing (.inl hbytes)
    case isFalse hbytes =>
      obtain ⟨q, hq, -, -, hkind⟩ := hwf.peer_kind hlive ha h.isFd hp
      rcases hkind with hops | hops
      · exact readToRemote_explains (m := m₁) hwf h.orphans hlive h.isFd hp hq hops rfl hlen hbytes
          h.events (hforces peer q hbytes hp hq hops) fun heof => hends heof peer q hp hq hops
      · refine readToSmart_explains (m := m₁) hwf h.orphans h.idle hlive hp hq hops rfl rfl ?_
          h.events
        intro hl hdone hacquire
        rw [@acquireOneTransport_congr m.d m₁.d rfl rfl] at hacquire
        exact hover peer q hl hp hq hops hdone hacquire

/-! ## The event function -/

/-- `local_socket_event_func`, called for a socket by the event loop. -/
lemma localSocketEventFunc_explains (h : Wf m) (hX : m.orphans = ∅) (hidle : m.handling = none)
    (howed : m.owed = none) (hdel : D₀.delivered e = some (.socket a, ev, m.d.io.reads))
    (hsock : m.d.sockets = D₀.sockets)
    (htr : m.d.transports = D₀.transports ∧ m.d.transportList = D₀.transportList)
    (hwrites : m.d.io.writes = e.io.writes)
    (hs : m.d.sockets a = some s) (hfd : s.ops.isFd = true)
    (hread : has (m.d.loop.mem (.socket a)).state fdeRead =
      has (D₀.loop.mem (.socket a)).state fdeRead)
    (hevents : (m.d.loop.mem (.socket a)).events = 0#16) :
    Explains e D₀ m.to m (m.d.localSocketEventFunc ev a) fun _ => True := by
  have ha : a ∉ m.orphans := by rw [hX]; exact Set.notMem_empty a
  have hs₀ : D₀.sockets a = some s := hsock ▸ hs
  have hnoRead : has (m.d.loop.mem (.socket a)).events fdeRead = false := by
    rw [hevents, has_zero_left]
  have hnoWrite : has (m.d.loop.mem (.socket a)).events fdeWrite = false := by
    rw [hevents, has_zero_left]
  rw [localSocketEventFunc]
  cases hw : has ev fdeWrite with
  | false =>
    simp only [Bool.false_eq_true, if_false, pure_bind, Bool.true_and]
    split
    case isTrue hr =>
      refine localSocketReadable_explains (s := s) (l := s.pkts) ⟨h, hX, hidle, hdel, hr, rfl,
        hs₀, hs, fun hyes => ?_, fun _ => ⟨hw, rfl⟩, fun _ => ⟨hw, rfl⟩, fun _ => htr,
        fun b _ => congrFun hsock b, hfd, hread, hnoRead⟩
      rw [hw] at hyes
      cases hyes
    case isFalse => exact .ok .refl trivial
  | true =>
    simp only [if_true]
    refine Explained.bind (localSocketWritable_explains h hs ha hfd howed ⟨ev, _, hdel, hw⟩ hsock
      hwrites hnoWrite) ?_
    rintro ⟨more, D⟩ hpath hD
    simp only
    split
    case isTrue hr =>
      rw [Bool.and_eq_true] at hr
      obtain ⟨hmore, hr⟩ := hr
      have hD := hD hmore
      refine localSocketReadable_explains (m := m.to D) (s := s) (l := []) ⟨wf_of_path hpath h,
        hX, hidle, ?_, hr, rfl, hs₀, ?_, fun _ => hD.ended, ?_, fun hnil => absurd rfl hnil, ?_, ?_,
        hfd, hD.read.trans hread, hD.events hnoRead⟩
      · rw [show (m.to D).d.io.reads = m.d.io.reads from hD.quiet.reads]
        exact hdel
      · show D.sockets a = _
        rw [hD.sockets, update_self]
      · intro hc
        rw [hD.notClosing] at hc
        cases hc
      · intro hno
        rw [hw] at hno
        cases hno
      · intro b hb
        show D.sockets b = _
        rw [hD.sockets, update_of_ne hb, hsock]
    case isFalse => exact .ok .refl trivial

end Events

end Adbd
