import Adbd.Accounts.Turns
import Adbd.Properties.AuthGate
import Adbd.Properties.Disconnects

/-!
# A connection starts over

An `A_CNXN` begins a new session.  If the state of the connection says that there has been one,
`handle_packet` takes the transport offline first, and every stream it has goes with it: a
transport has streams only while it is online.  Where keys are asked for, nothing is opened for
the host from then on, before the framework has said `OK` once more.

`adb_auth_verified` puts a transport online without a look at the state of the connection.  If that
state is offline then, as it is before the first `A_CNXN` and after an `A_SYNC` that ends a session,
the transport is still online after the next `A_CNXN`, with the streams it has.
-/

namespace Adbd.SessionReset

open Function Relation Transition FlagWord Daemon

/-! ## Streams are on online transports -/

/-- A transport that is offline has no streams, unless they are just being closed. -/
def Emptied (m : Moment) : Prop :=
  ∀ t x, m.d.transports t = some x → x.online = false → x.disconnects = [] ∨ m.draining = some t

section Changes

variable {D D' : Daemon} {m : Moment} {t : TAddr} {x y : Atransport}

/-- The transport `t` is assigned to, and the others are left alone. -/
lemma Emptied.assign (h : Emptied m) (hx : m.d.transports t = some x)
    (hT : D'.transports = update m.d.transports t (some y)) (hon : y.online = x.online)
    (hd : x.disconnects = [] → y.disconnects = []) : Emptied (m.to D') := by
  intro u z hz hoff
  replace hz : D'.transports u = some z := hz
  rw [hT] at hz
  by_cases hut : u = t
  · rw [hut, update_self, Option.some.injEq] at hz
    rw [← hz, hon] at hoff
    rw [← hz, hut]
    exact (h t x hx hoff).imp_left hd
  · rw [update_of_ne hut] at hz
    exact h u z hz hoff

/-- A transport gets online, or has no streams. -/
lemma Emptied.settle (h : Emptied m) (hT : D'.transports = update m.d.transports t (some y))
    (hy : y.online = false → y.disconnects = []) : Emptied (m.to D') := by
  intro u z hz hoff
  replace hz : D'.transports u = some z := hz
  rw [hT] at hz
  by_cases hut : u = t
  · rw [hut, update_self, Option.some.injEq] at hz
    rw [← hz] at hoff ⊢
    exact .inl (hy hoff)
  · rw [update_of_ne hut] at hz
    exact h u z hz hoff

end Changes

/-- Every change keeps the streams on the transports that are online. -/
theorem emptied_kept : Kept (fun _ _ => True) Emptied := by
  intro e D m m' _ _ _ _ hwf h he
  cases he
  case receive t x p rest hx hp hidle => exact h.assign hx rfl rfl id
  case send via p t x hx hmay hopen habout hcmd hsync => exact h.assign hx rfl rfl id
  case okay a r s q p t x ha hs hq hp hr hx hmay hopen howed hcmd hid hdest =>
    exact h.assign hx rfl rfl id
  case tweak t x x' hx htw =>
    have hon : x'.online = x.online := by rw [htw]
    have hd : x'.disconnects = x.disconnects := by rw [htw]
    exact h.assign hx rfl hon fun hnil => hd.trans hnil
  case offline t x hx => exact h.assign hx rfl rfl id
  case down t x hx hidle =>
    intro u z hz hoff
    by_cases hut : u = t
    · exact .inr (hut ▸ rfl)
    · have hz' : m.d.transports u = some z := (update_of_ne hut ..).symm.trans hz
      refine .inl ((h u z hz' hoff).resolve_right ?_)
      rw [hidle]
      nofun
  case drainedAll t x hx ht hnil =>
    intro u z hz hoff
    refine .inl ?_
    rcases h u z hz hoff with hd | hu
    · exact hd
    · rw [ht, Option.some.injEq] at hu
      subst hu
      cases hx.symm.trans hz
      exact hnil
  case up t x hx hserve hopen => exact h.settle rfl nofun
  case verified t x hx hidle hok => exact h.settle rfl nofun
  case banner t x text hx hserve =>
    obtain ⟨st, a, b, c, hb⟩ := parseBanner_eq text x
    exact h.assign hx rfl (by rw [hb]) fun hnil => by rw [hb, hnil]
  case dropRemote r s t x hs hr hops ht hx =>
    refine h.assign hx rfl rfl fun hnil => ?_
    show x.disconnects.erase r = []
    rw [hnil, List.erase_nil]
  case pair a s id t x hs hp hclosing hl hin hnew hx hserve honline opened hopened =>
    refine h.settle rfl fun hoff => ?_
    rw [honline] at hoff
    cases hoff
  case wrteRead a r s q p t x ev L ha hs hops hp hto hin hset hev hread hwrite hevents hsub hb _ =>
    exact h.assign hto.alive rfl rfl id
  case wrteJdwp a r s q p t x ha hs hops hp hto hpass => exact h.assign hto.alive rfl rfl id
  case wrteTracker a r s q p t x ha hs hops hp hto hneed => exact h.assign hto.alive rfl rfl id
  case register x hx hown => exact h.settle rfl fun _ => by rw [hx]
  case enlist t x rest hreg hx hstate => exact h.settle rfl fun _ => rfl
  case start t x rest n k L M hreg hx hn hk hnk hL hM => exact h.settle rfl fun _ => rfl
  case freeTransport t x hidle hx hd hrem hhist hreg hin =>
    intro u z hz hoff
    replace hz : update m.d.transports t none u = some z := hz
    by_cases hut : u = t
    · rw [hut, update_self] at hz
      cases hz
    · rw [update_of_ne hut] at hz
      exact h u z hz hoff
  case output t x y L R os n hidle hx hact hstep =>
    exact h.assign hx rfl (by rw [hstep.frame]) fun hnil => by rw [hstep.frame, hnil]
  case input t x y L R os n hidle hx hstart hstep =>
    exact h.assign hx rfl (by rw [hstep.frame]) fun hnil => by rw [hstep.frame, hnil]
  case closedAll t x hidle hx hpc => exact h.assign hx rfl rfl id
  all_goals exact h

lemma emptied_reachable {D : Daemon} (h : Reachable D) : Emptied { d := D } := by
  refine emptied_kept.reachable (fun config fds inUse D hmain => ?_) h
  obtain ⟨L, O, I, rfl⟩ := adbMain_eq hmain
  intro t x hx
  cases hx

/-- Between two events every remote socket belongs to a transport that is there and online, and is
linked with it; a transport that is offline has none. -/
structure OnOnline (D : Daemon) : Prop where
  streams : ∀ r q, D.sockets r = some q → q.ops = .remote →
    ∃ t x, q.transport = some t ∧ D.transports t = some x ∧ x.online = true ∧ r ∈ x.disconnects
  offline : ∀ t x, D.transports t = some x → x.online = false → x.disconnects = [] ∧
    ∀ r q, D.sockets r = some q → q.ops = .remote → q.transport ≠ some t

lemma onOnline_of_emptied {D : Daemon} (hwf : Wf { d := D }) (h : Emptied { d := D }) :
    OnOnline D := by
  have hnil : ∀ t x, D.transports t = some x → x.online = false → x.disconnects = [] := by
    intro t x hx hoff
    exact (h t x hx hoff).resolve_right nofun
  have hlinked : ∀ r q, D.sockets r = some q → q.ops = .remote →
      ∃ t x, q.transport = some t ∧ D.transports t = some x ∧ r ∈ x.disconnects := by
    intro r q hq hrem
    obtain ⟨t, l, ht, hl, hmem⟩ := hwf.peers.linked r q hq hrem
    obtain ⟨x, hx, rfl⟩ := Option.map_eq_some_iff.mp hl
    exact ⟨t, x, ht, hx, hmem⟩
  constructor
  · intro r q hq hrem
    obtain ⟨t, x, ht, hx, hmem⟩ := hlinked r q hq hrem
    refine ⟨t, x, ht, hx, ?_, hmem⟩
    by_contra hoff
    rw [hnil t x hx (Bool.eq_false_of_not_eq_true hoff)] at hmem
    cases hmem
  · intro t x hx hoff
    refine ⟨hnil t x hx hoff, fun r q hq hrem ht => ?_⟩
    obtain ⟨u, y, hu, hy, hmem⟩ := hlinked r q hq hrem
    rw [ht, Option.some.injEq] at hu
    subst hu
    cases hx.symm.trans hy
    rw [hnil t x hx hoff] at hmem
    cases hmem

/-- In every state between two events the streams are on transports that are online. -/
theorem streams_online {D : Daemon} (h : Reachable D) : OnOnline D :=
  onOnline_of_emptied h.wf (emptied_reachable h)

/-- The theorem in a state with a stream. -/
theorem streams_online_shell : ∃ D, Reachable D ∧
    (D.sockets 1).any (·.ops = .remote) = true ∧ OnOnline D := by
  obtain ⟨D, hD, hremote⟩ := @exists_reachable Bool PeerLinks.unlocked [3, 4, 6, 7, 8, 9]
    (fun _ => false) PeerLinks.openShell (fun D => (D.sockets 1).any (·.ops = .remote)) true
    (by decide +kernel)
  exact ⟨D, hD, hremote, streams_online hD⟩

/-! ## `A_CNXN` -/

section Handling

variable {D D' : Daemon} {t : TAddr} {x : Atransport} {p : Apacket} {e : Event}

/-- `send_packet` of a fresh packet queues it. -/
lemma sendMsg_queues (hx : D.transports t = some x) (msg : Amessage) (data : List UInt8) :
    Ensures (D.sendMsg none msg data (some t)) fun D' =>
      D'.config = D.config ∧ ∃ l, D'.transports t = some { x with toInput := l } := by
  rw [sendMsg]
  simp only [getApacket, sendPacket]
  refine (writePacket_outcome (D := { D with nextPacket := D.nextPacket + 1 }) hx none _).imp ?_
    fun _ _ => trivial
  rintro D' rfl
  exact ⟨rfl, _, update_self ..⟩

/-- `send_auth_request` leaves the transport as it is, as far as going online is concerned. -/
lemma sendAuthRequest_online (hx : D.transports t = some x) :
    Ensures (D.sendAuthRequest t) fun D' => ∃ y, D'.transports t = some y ∧
      y.online = x.online := by
  rw [sendAuthRequest]
  cases D.io.token with
  | none => exact ⟨x, hx, rfl⟩
  | some token =>
    simp only
    split
    case isFalse => exact ⟨x, hx, rfl⟩
    case isTrue =>
      rw [modifyT_bind hx]
      refine (sendMsg_queues (setTransport_self ..) _ _).mono ?_
      rintro D' ⟨-, l, hD'⟩
      exact ⟨_, hD', rfl⟩

lemma sendConnect_config (hx : D.transports t = some x) :
    Ensures (D.sendConnect t) fun D' => D'.config = D.config := by
  rw [sendConnect]
  split
  case isTrue => trivial
  case isFalse => exact (sendMsg_queues hx _ _).mono fun D' h => h.1

/-- `run_transport_disconnects` empties the list, whatever is called on the way. -/
lemma runTransportDisconnects_empties (h : Daemon.Graph ∅ D) (hx : D.transports t = some x) :
    Ensures (D.runTransportDisconnects t) fun D' =>
      D'.transports t = some { x with disconnects := [] } := by
  have hstart := Walked.start h hx
  have hcalls : D.runTransportDisconnects t = D.callDisconnects x.disconnects := by
    rw [runTransportDisconnects, derefT_bind hx]
    exact hstart.runDisconnects h hx
  rw [hcalls]
  rw [← List.append_nil x.disconnects] at hstart
  refine (hstart.calls h hx).imp (fun D' hw => ?_) fun _ _ => trivial
  rw [hw.transports, update_self]

/-- Assigning to a transport leaves the links between the sockets alone. -/
lemma graph_setTransport (h : Daemon.Graph ∅ D) (hx : D.transports t = some x) {y : Atransport}
    (hy : y.disconnects = x.disconnects) : Daemon.Graph ∅ (D.setTransport t y) := by
  have hT : disconnectsOf (D.setTransport t y).transports = disconnectsOf D.transports :=
    disconnectsOf_assign hx hy
  rw [Daemon.Graph, hT]
  exact h

/-- `handle_offline`. -/
lemma handleOffline_online (h : Daemon.Graph ∅ D) (hx : D.transports t = some x) :
    Ensures (D.handleOffline t) fun D' => ∃ y, D'.transports t = some y ∧ y.online = false := by
  rw [handleOffline, modifyT_bind hx]
  have hg : Daemon.Graph ∅ (D.setTransport t { x with online := false }) :=
    graph_setTransport h hx rfl
  exact (runTransportDisconnects_empties hg (setTransport_self ..)).mono fun D' hD' => ⟨_, hD', rfl⟩

/-- The end of the case `A_CNXN`: where keys are asked for, nobody gets online. -/
lemma greet_online (hx : D.transports t = some x) :
    Ensures (do
      let banner ← cstr p.data
      let D ← D.modifyT t (parseBanner banner)
      if D.config.host || !D.config.authEnabled then do
        let D ← D.handleOnline t
        if D.config.host then pure D else D.sendConnect t
      else D.sendAuthRequest t) fun D' =>
        (D'.config.host || !D'.config.authEnabled) = false →
          ∃ y, D'.transports t = some y ∧ y.online = x.online := by
  rw [cstr]
  split
  case isFalse => trivial
  case isTrue =>
    obtain ⟨st, a, b, c, hbanner⟩ := parseBanner_eq (p.data.takeWhile (· ≠ 0)) x
    show Ensures (D.modifyT t (parseBanner (p.data.takeWhile (· ≠ 0))) >>= _) _
    rw [modifyT_bind hx, hbanner]
    split
    case isTrue hopen =>
      rw [handleOnline, modifyT_bind (setTransport_self ..)]
      -- the host is let in: keys are not asked for
      have hno : ∀ D' : Daemon, D'.config = D.config →
          (D'.config.host || !D'.config.authEnabled) = false → False := by
        intro D' hconfig hclosed
        rw [hconfig] at hclosed
        exact absurd (hopen.symm.trans hclosed) (by decide)
      split
      · exact fun hclosed => (hno _ rfl hclosed).elim
      · exact (sendConnect_config (setTransport_self ..)).mono fun D' hconfig hclosed =>
          (hno D' hconfig hclosed).elim
    case isFalse =>
      refine (sendAuthRequest_online (setTransport_self ..)).mono ?_
      rintro D' ⟨y, hy, hon⟩ -
      exact ⟨y, hy, hon⟩

/-- `case A_CNXN`, where keys are asked for: who is online after it was so before, and the state
of the connection said that it was down. -/
lemma handleCnxn_online (h : Daemon.Graph ∅ D) (hx : D.transports t = some x) :
    Ensures (D.handleCnxn p t) fun D' => (D'.config.host || !D'.config.authEnabled) = false →
      ∃ y, D'.transports t = some y ∧
        y.online = (x.online && decide (x.connectionState = .offline)) := by
  rw [handleCnxn, derefT_bind hx]
  split
  case isTrue hup =>
    rw [modifyT_bind hx]
    have hg : Daemon.Graph ∅ (D.setTransport t { x with connectionState := .offline }) :=
      graph_setTransport h hx rfl
    refine Outcome.bind (handleOffline_online hg (setTransport_self ..)) ?_
    rintro D₁ - ⟨y, hy, hoff⟩
    refine (greet_online hy).mono fun D' hD' hclosed => ?_
    obtain ⟨z, hz, hon⟩ := hD' hclosed
    refine ⟨z, hz, ?_⟩
    rw [hon, hoff, decide_eq_false hup, Bool.and_false]
  case isFalse hdown =>
    refine (greet_online hx).mono fun D' hD' hclosed => ?_
    obtain ⟨z, hz, hon⟩ := hD' hclosed
    refine ⟨z, hz, ?_⟩
    rw [hon, decide_eq_true (not_not.mp hdown), Bool.and_true]

/-- A step that hands an `A_CNXN` to `handle_packet`, where keys are asked for. -/
lemma online_of_cnxn (hkeys : AuthGate.AsksForKeys D) (hands : Hands e D t p)
    (hcmd : p.msg.command = aCnxn) (hs : D.step e = .ok D') :
    ∃ x y, D.transports t = some x ∧ D'.transports t = some y ∧
      y.online = (x.online && decide (x.connectionState = .offline)) := by
  obtain ⟨hwf, hhost, hauth⟩ := hkeys
  obtain ⟨ev, rs, x, rest, hdelivered, hat⟩ := hands
  obtain ⟨L, hL, hcallback⟩ := callback_of_delivered hdelivered nofun hs
  set D₁ : Daemon := { D with loop := L, io := { e.io with reads := rs } } with hD₁
  have hholds : D₁.holds x.transportSocket (.transportSocket t) = true := by
    have hholds := hat.holds
    rw [Daemon.holds] at hholds ⊢
    rwa [hL]
  -- the callback is `transport_socket_events`, and there is a packet to read
  change D₁.transportSocketEvents ev t = _ at hcallback
  rw [transportSocketEvents, derefT_bind (show D₁.transports t = some x from hat.found),
    if_pos hat.event, if_pos hholds, hat.queue] at hcallback
  set D₂ : Daemon := (D₁.setTransport t { x with toMain := rest }).emit (.received t p) with hD₂
  have hpacket : (D₂.handleCnxn p t >>= fun D => pure (D.putApacket p)) = .ok D' := by
    rw [← hcallback]
    simp only [handlePacket]
    rw [if_neg (by rw [hcmd]; decide), if_pos hcmd]
  obtain ⟨D₃, hcnxn, hput⟩ := bind_eq_ok_iff.mp hpacket
  cases hput
  have hg : Daemon.Graph ∅ D₂ := graph_setTransport (D := D₁) hwf.peers hat.found rfl
  have hconfig : (D₃.putApacket p).config = D.config := config_of_path (path_of_step hwf hs)
  have hclosed : (D₃.config.host || !D₃.config.authEnabled) = false := by
    change ((D₃.putApacket p).config.host || !(D₃.putApacket p).config.authEnabled) = false
    rw [hconfig, hhost, hauth]
    rfl
  obtain ⟨y, hy, hon⟩ := (handleCnxn_online hg (setTransport_self ..)).success hcnxn hclosed
  exact ⟨x, y, hat.found, hy, hon⟩

end Handling

/-! ## The new session -/

/-- Nothing is left of the sessions of `t`: it is offline, and there is no stream of it. -/
structure Reset (t : TAddr) (D : Daemon) : Prop where
  offline : ∀ x, D.transports t = some x → x.online = false ∧ x.disconnects = []
  streams : ∀ r q, D.sockets r = some q → q.ops = .remote → q.transport ≠ some t

/-- The transport is online while the state of its connection is offline: the framework has let the
host in, and no `A_CNXN` has come in since that state was last offline. -/
def Early (t : TAddr) (D : Daemon) : Prop :=
  ∃ x, D.transports t = some x ∧ x.online = true ∧ x.connectionState = .offline

section Runs

variable {D D₁ D₂ : Daemon} {t : TAddr} {p : Apacket} {e : Event} {es : List Event}

lemma reset_of_offline (h : OnOnline D) (hoff : ∀ x, D.transports t = some x → x.online = false) :
    Reset t D := by
  constructor
  · exact fun x hx => ⟨hoff x hx, (h.offline t x hx (hoff x hx)).1⟩
  · intro r q hq hrem ht
    obtain ⟨u, x, hu, hx, hon, -⟩ := h.streams r q hq hrem
    rw [ht, Option.some.injEq] at hu
    subst hu
    rw [hoff x hx] at hon
    cases hon

/-- Without the framework's `OK`, a transport that is offline stays so, and nothing is opened. -/
lemma unserved_run (hkeys : AuthGate.AsksForKeys D) (hemptied : Emptied { d := D })
    {old : List Obs} (hunserved : ¬AuthGate.ServedSince old t D)
    (hlong : Along Daemon.step (fun e D => ¬FrameworkOk e D t) es D)
    (hrun : run Daemon.step es D = .ok D₁) :
    OnOnline D₁ ∧ ¬AuthGate.ServedSince old t D₁ := by
  have hkept : ∀ e D D',
      (AuthGate.AsksForKeys D ∧ Emptied { d := D } ∧ ¬AuthGate.ServedSince old t D) →
      ¬FrameworkOk e D t → D.step e = .ok D' →
      AuthGate.AsksForKeys D' ∧ Emptied { d := D' } ∧ ¬AuthGate.ServedSince old t D' := by
    rintro e D D' ⟨hkeys, hemptied, hunserved⟩ hno hs
    refine ⟨AuthGate.asksForKeys_step hkeys hs,
      emptied_kept.step trivial hkeys.1 hemptied hs, fun hserved => ?_⟩
    exact (AuthGate.served_step hkeys hs hserved).elim hunserved hno
  obtain ⟨hkeys₁, hemptied₁, hunserved₁⟩ :=
    run_invariant hkept ⟨hkeys, hemptied, hunserved⟩ hlong hrun
  exact ⟨onOnline_of_emptied hkeys₁.1 hemptied₁, hunserved₁⟩

/-- Where keys are asked for, an `A_CNXN` ends the session of its transport exactly if it does not
find it online with the state of its connection offline.  After that the transport is offline and
has no stream, and none is opened, until a step delivers the framework's `OK` for it. -/
theorem session_reset (h : Reachable D) (hhost : D.config.host = false)
    (hauth : D.config.authEnabled = true) (hands : Hands e D t p)
    (hcmd : p.msg.command = aCnxn) (hs : D.step e = .ok D₁) :
    (Reset t D₁ ↔ ¬Early t D) ∧
      (¬Early t D → ∀ es D₂, Along Daemon.step (fun e D => ¬FrameworkOk e D t) es D₁ →
        run Daemon.step es D₁ = .ok D₂ → Reset t D₂ ∧
          ∀ r a l rid, .stream r a l rid t ∈ D₂.trace → .stream r a l rid t ∈ D₁.trace) := by
  have hkeys : AuthGate.AsksForKeys D := ⟨h.wf, hhost, hauth⟩
  have hkeys₁ := AuthGate.asksForKeys_step hkeys hs
  have hemptied₁ := emptied_kept.step trivial h.wf (emptied_reachable h) hs
  obtain ⟨x, y, hx, hy, hon⟩ := online_of_cnxn hkeys hands hcmd hs
  have hoff : ¬Early t D → ∀ z, D₁.transports t = some z → z.online = false := by
    intro hearly z hz
    cases hy.symm.trans hz
    rw [hon, Bool.and_eq_false_iff, decide_eq_false_iff_not]
    by_contra hboth
    push Not at hboth
    exact hearly ⟨x, hx, Bool.eq_true_of_not_eq_false hboth.1, hboth.2⟩
  refine ⟨⟨?_, fun hearly => ?_⟩, fun hearly es D₂ hlong hrun => ?_⟩
  · rintro hreset ⟨z, hz, hzon, hzdown⟩
    cases hx.symm.trans hz
    have hyoff := (hreset.offline y hy).1
    rw [hon, hzon, hzdown] at hyoff
    cases hyoff
  · exact reset_of_offline (onOnline_of_emptied hkeys₁.1 hemptied₁) (hoff hearly)
  · have hunserved : ¬AuthGate.ServedSince D₁.trace t D₁ := by
      rintro (hno | ⟨r, a, l, rid, hmem, hnew⟩)
      · rw [hy, Option.any_some, hoff hearly y hy] at hno
        cases hno
      · exact hnew hmem
    obtain ⟨hon₂, hunserved₂⟩ := unserved_run hkeys₁ hemptied₁ hunserved hlong hrun
    rw [AuthGate.ServedSince, not_or] at hunserved₂
    refine ⟨reset_of_offline hon₂ fun z hz => ?_, fun r a l rid hmem => ?_⟩
    · have hz' := hunserved₂.1
      rw [hz, Option.any_some] at hz'
      exact Bool.eq_false_of_not_eq_true hz'
    · by_contra hnew
      exact hunserved₂.2 ⟨r, a, l, rid, hmem, hnew⟩

end Runs

/-! ## Two runs -/

/-- A host sends a packet, and the main loop is about to handle it. -/
def offer (p : Apacket) : List Event :=
  [⟨.output 0, { packet := some p }⟩, ⟨.epollWait [(11, ⟨true, false, false⟩)], {}⟩]

/-- The `A_CNXN` of a host. -/
def cnxn : Apacket := PeerLinks.packetOf aCnxn aVersion 4096 (str "host::" ++ [0])

/-- A host whose key the framework has accepted opens a shell and connects once more. -/
def reconnect : List Event :=
  AuthGate.confirmKey ++ PeerLinks.carry 0 11
    (PeerLinks.packetOf aOpen 7 0 (str "shell:" ++ [0])) { fds := [13] } ++ offer cnxn

/-- What the next packet of transport 0 is, if the next step hands one to `handle_packet`. -/
def command (D : Daemon) : Option UInt32 :=
  match D.delivered ⟨.dispatch, {}⟩, D.transports 0 with
  | some (.transport 0, ev, _), some x =>
    if has ev fdeRead && D.holds x.transportSocket (.transportSocket 0) then
      x.toMain.head?.map (·.msg.command)
    else none
  | _, _ => none

lemma hands_of_command {D : Daemon} {c : UInt32} (h : command D = some c) :
    ∃ p, Hands ⟨.dispatch, {}⟩ D 0 p ∧ p.msg.command = c := by
  rw [command] at h
  split at h
  case h_2 => cases h
  case h_1 ev rs x hdelivered hx =>
    split at h
    case isFalse => cases h
    case isTrue hread =>
      rw [Bool.and_eq_true] at hread
      obtain ⟨p, hp, rfl⟩ := Option.map_eq_some_iff.mp h
      obtain ⟨rest, hqueue⟩ := List.head?_eq_some_iff.mp hp
      exact ⟨p, ⟨ev, rs, x, rest, hdelivered, rfl, hread.1, hx, hread.2, hqueue⟩, rfl⟩

/-- The theorem on that run: the stream of the shell is gone. -/
theorem session_reset_second : ∃ D D₁, Reachable D ∧
    (D.sockets 1).any (·.transport = some 0) = true ∧ D.step ⟨.dispatch, {}⟩ = .ok D₁ ∧
    Reset 0 D₁ := by
  obtain ⟨D, hD, hshows⟩ := @exists_reachable (Bool × Bool × Option UInt32 × Bool × Bool × Bool) {}
    [3, 4, 5, 6, 7, 8, 9] (fun _ => false) reconnect
    (fun D => (D.config.host, D.config.authEnabled, command D,
      (D.transports 0).any (·.connectionState = .offline),
      (D.sockets 1).any (·.transport = some 0), (D.step ⟨.dispatch, {}⟩).toOption.isSome))
    (false, true, some aCnxn, false, true, true) (by decide +kernel)
  simp only [Prod.mk.injEq] at hshows
  obtain ⟨hhost, hauth, hcommand, hstate, hstream, hstep⟩ := hshows
  obtain ⟨p, hands, hcmd⟩ := hands_of_command hcommand
  cases hs : D.step ⟨.dispatch, {}⟩ with
  | error r =>
    rw [hs] at hstep
    cases hstep
  | ok D₁ =>
    refine ⟨D, D₁, hD, hstream, hs, (session_reset hD hhost hauth hands hcmd hs).1.mpr ?_⟩
    rintro ⟨x, hx, -, hdown⟩
    rw [hx, Option.any_some, hdown] at hstate
    cases hstate

/-- A host that sends its key first is let in while the state of its connection is down. -/
theorem exists_early : ∃ D, Reachable D ∧ Early 0 D := by
  obtain ⟨D, hD, hshows⟩ := @exists_reachable (Option (Bool × ConnectionState)) {}
    [3, 4, 5, 6, 7, 8, 9] (fun _ => false)
    (PeerLinks.handleNext 5 { fds := [20] } ++ PeerLinks.connect 0 10 11 12 ++
      PeerLinks.carry 0 11 (PeerLinks.packetOf aAuth adbAuthRsapublickey 0 (str "key" ++ [0]))
        { writes := [.wrote 5] } ++
      PeerLinks.handleNext 20 { reads := [.data (str "OK")] })
    (fun D => (D.transports 0).map fun x => (x.online, x.connectionState)) (some (true, .offline))
    (by decide +kernel)
  obtain ⟨x, hx, hfields⟩ := Option.map_eq_some_iff.mp hshows
  obtain ⟨hon, hdown⟩ := Prod.mk.inj hfields
  exact ⟨D, hD, x, hx, hon, hdown⟩

end Adbd.SessionReset
