import Adbd.Effects.Close

/-!
# Data into sockets, as changes

`send_packet` on behalf of a stream, and `enqueue` of every kind of socket, each as a sequence
of elementary changes.

A write loop takes the front of what it is given and all of it if it ends well; `drain` writes the
packets of a queue one after the other and stops at the first that does not go out whole.  So what
a socket has taken over and what is still queued always add up to what it was given.

`enqueue` returns what its caller does next: 0 allows the `A_OKAY`, which the moment records as
`owed`, 1 puts it off until the queue is empty, and -1 says that the socket has been closed.  The
smart socket is the only one that changes the links: once its request is complete it is taken out
from between its peer and the transport the peer is handed over to.
-/

namespace Adbd

open Function FlagWord Transition Relation Daemon

/-! ## Partial writes -/

/-- What a write loop accepts is the front of what it was given, and all of it if it is done. -/
lemma writeLoop_spec (bs : List UInt8) (ws : List Syscall.WriteResult) : ∃ rest,
    bs = (writeLoop bs ws).1 ++ rest ∧ ((writeLoop bs ws).2.1 = .done ↔ rest = []) := by
  induction ws generalizing bs with
  | nil =>
    cases bs with
    | nil => exact ⟨[], by simp [writeLoop]⟩
    | cons b bs => exact ⟨b :: bs, by simp [writeLoop]⟩
  | cons w ws ih =>
    cases bs with
    | nil => exact ⟨[], by simp [writeLoop]⟩
    | cons b bs =>
      cases w with
      | wrote n =>
        by_cases hn : n = 0
        · exact ⟨b :: bs, by simp [writeLoop, hn]⟩
        · obtain ⟨rest, hfront, hdone⟩ := ih ((b :: bs).drop n)
          refine ⟨rest, ?_, ?_⟩
          · simp only [writeLoop, if_neg hn]
            rw [List.append_assoc, ← hfront, List.take_append_drop]
          · simp only [writeLoop, if_neg hn]
            exact hdone
      | intr => simpa only [writeLoop] using ih (b :: bs)
      | again => exact ⟨b :: bs, by simp [writeLoop]⟩
      | fail => exact ⟨b :: bs, by simp [writeLoop]⟩

lemma remaining_advance (p : Apacket) (n : ℕ) :
    (advance p n).remaining = p.remaining.drop n := by
  simp only [advance, Apacket.remaining]
  rw [List.drop_take, List.drop_drop]

/-- What is left of a packet after a write loop over it. -/
lemma remaining_writeLoop {p : Apacket} {ws ws' : List Syscall.WriteResult} {out : List UInt8}
    {w : WriteEnd} (h : writeLoop p.remaining ws = (out, w, ws')) :
    p.remaining = out ++ (advance p out.length).remaining ∧
      (w = .done ↔ (advance p out.length).remaining = []) := by
  obtain ⟨rest, hfront, hdone⟩ := writeLoop_spec p.remaining ws
  rw [h] at hfront hdone
  have hrest : (advance p out.length).remaining = rest := by
    rw [remaining_advance, hfront]
    simp
  rw [hrest]
  exact ⟨hfront, hdone⟩

/-- Draining a queue writes its front in order; it ends with nothing left, or with the packet
it got stuck at. -/
lemma drain_spec (ps : List Apacket) (ws : List Syscall.WriteResult) :
    (drain ps ws).written ++ (drain ps ws).pkts.flatMap Apacket.remaining =
      ps.flatMap Apacket.remaining ∧
    ((drain ps ws).ended = .done ↔ (drain ps ws).pkts = []) := by
  induction ps generalizing ws with
  | nil => simp [drain]
  | cons p ps ih =>
    rw [drain]
    split
    case h_1 out ws' hw =>
      obtain ⟨hout, hdone⟩ := ih ws'
      obtain ⟨hp, hrest⟩ := remaining_writeLoop hw
      rw [hrest.mp rfl, List.append_nil] at hp
      refine ⟨?_, hdone⟩
      simp only
      rw [List.append_assoc, hout, List.flatMap_cons, hp]
    case h_2 out w ws' hne hw =>
      obtain ⟨hp, -⟩ := remaining_writeLoop hw
      refine ⟨?_, ?_⟩
      · simp only [List.flatMap_cons]
        rw [← List.append_assoc, ← hp]
      · constructor
        · intro hdone
          exact (hne hdone).elim
        · intro hnil
          cases hnil

lemma drain_length (ps : List Apacket) (ws : List Syscall.WriteResult) :
    (drain ps ws).pkts.length ≤ ps.length := by
  induction ps generalizing ws with
  | nil => simp [drain]
  | cons p ps ih =>
    rw [drain]
    split
    case h_1 out ws' _ =>
      have := ih ws'
      rw [List.length_cons]
      exact Nat.le_succ_of_le this
    case h_2 => simp

/-- The packet at the front of what is left has something left. -/
lemma drain_stuck (ps : List Apacket) (ws : List Syscall.WriteResult) :
    ∀ p ∈ (drain ps ws).pkts.head?, p.remaining ≠ [] := by
  induction ps generalizing ws with
  | nil => simp [drain]
  | cons p ps ih =>
    rw [drain]
    split
    case h_1 out ws' _ => exact ih ws'
    case h_2 out w ws' hne hw =>
      intro q hq
      rw [List.head?_cons, Option.mem_def, Option.some.injEq] at hq
      subst hq
      intro hnil
      exact hne ((remaining_writeLoop hw).2.mpr hnil)

/-- Going on with the peer. -/
lemma peerOf_bind {β : Type} {a p : Addr} {s : Asocket} (hp : s.peer = some p)
    (f : Addr → Except Stop β) : (peerOf a s >>= f) = f p := by
  rw [peerOf, hp]
  rfl

section Data

variable {e : Event} {D₀ : Daemon} {m : Moment} {a : Addr} {s : Asocket}

/-- A socket with a peer is not flushing. -/
lemma Wf.paired_open {p : Addr} (h : Wf m) (hs : m.d.sockets a = some s) (ha : a ∉ m.orphans)
    (hp : s.peer = some p) : s.closing = false := by
  by_contra hc
  rw [Bool.not_eq_false] at hc
  have hnone := (h.flushing_only hs ha hc).2
  rw [hp] at hnone
  cases hnone

/-- `s->close(s)` of a socket with a peer. -/
lemma closePaired_explains {p : Addr} (h : Wf m) (hs : m.d.sockets a = some s)
    (ha : a ∉ m.orphans) (hp : s.peer = some p)
    (hcause : ∀ r q, s.peer = some r → m.d.sockets r = some q → q.ops = .remote →
      LocalClose e D₀) :
    Explains e D₀ m.to m (m.d.close a) (Shut m.d a s) := by
  refine close_explains h hs ha (fun hc => ?_) hcause
  rw [h.paired_open hs ha hp] at hc
  cases hc

/-- `s->close(s)` of a socket that is not one of a stream's two ends, or the far one. -/
lemma closeOther_explains {p : Addr} (h : Wf m) (hs : m.d.sockets a = some s)
    (ha : a ∉ m.orphans) (hp : s.peer = some p) (hops : s.ops = .remote ∨ s.ops = .smart) :
    Explains e D₀ m.to m (m.d.close a) (Shut m.d a s) :=
  closePaired_explains h hs ha hp fun r q hr hq hrem =>
    absurd hrem (h.peer_not_remote hs ha hops r q hr hq)

/-! ## Sending on behalf of a stream -/

/-- The state after `send_packet`. -/
def Daemon.sent (via : Option Addr) (p : Apacket) (t : TAddr) (x : Atransport) (D : Daemon) :
    Daemon :=
  (D.setTransport t { x with toInput := x.toInput ++ [stamp p] }).emit (.sent t via (stamp p))

/-- `send_packet` as a part of a larger change, between `m` and a state `D` that agrees with it
on transports and descriptors. -/
lemma sendPacket_bind {β : Type} {via : Option Addr} {p : Apacket} {t : TAddr} {x : Atransport}
    {D : Daemon} {f : Daemon → Except Stop β} {g : β → Moment} {Q : β → Prop}
    (hloop : D.loop = m.d.loop) (howner : D.owner = m.d.owner) (hconfig : D.config = m.d.config)
    (htr : D.transports = m.d.transports) (hx : m.d.transports t = some x) (hmay : m.MaySend t)
    (hf : m.d.pairOpen t x = true → Explains e D₀ g m (f (D.sent via p t x)) Q) :
    Explains e D₀ g m (D.sendPacket via p (some t) >>= f) Q := by
  have hholds : ∀ n d, D.holds n d = m.d.holds n d := by
    intro n d
    rw [holds, holds, hloop, howner]
  rw [sendPacket, writePacket, derefT_bind (htr ▸ hx), hholds, hholds, hconfig]
  split
  case isTrue hts =>
    split
    case isTrue hfd =>
      split
      case isTrue hroom =>
        refine hf ?_
        rw [pairOpen, hts, hfd]
        rfl
      case isFalse hroom => exact ⟨m, .refl, hmay, x, hx, by simpa using hroom⟩
    case isFalse hfd => exact ⟨m, .refl, hmay, x, hx, .inr (by simpa using hfd)⟩
  case isFalse hts =>
    split
    · exact ⟨m, .refl, trivial⟩
    · exact ⟨m, .refl, hmay, x, hx, .inl (by simpa using hts)⟩

/-- A stream may send to its transport. -/
lemma maySend_of_remote {r : Addr} {q : Asocket} {t : TAddr} (hq : m.d.sockets r = some q)
    (hops : q.ops = .remote) (ht : q.transport = some t) : m.MaySend t :=
  .inr (.inl ⟨r, q, hq, hops, ht⟩)

/-- The `A_WRTE` that `remote_socket_enqueue` makes of a packet. -/
def wrtePacket (p : Apacket) (l rid : UInt32) : Apacket :=
  stamp { p with msg := { p.msg with
    command := aWrte
    arg0 := l
    arg1 := rid
    dataLength := UInt32.ofNat p.len } }

lemma wrtePacket_payload {p : Apacket} (l rid : UInt32) (hlen : p.len = p.data.length)
    (hmax : p.data.length ≤ maxPayload) : (wrtePacket p l rid).payload = p.data := by
  show p.data.take (UInt32.ofNat p.len).toNat = p.data
  have hlt : p.len < 2 ^ 32 := by
    have : maxPayload < 2 ^ 32 := by decide
    omega
  rw [UInt32.toNat_ofNat_of_lt' hlt, hlen, List.take_length]

/-- `remote_socket_enqueue` as a part of a larger change. -/
lemma remoteEnqueue_bind {β : Type} {r : Addr} {q : Asocket} {t : TAddr} {x : Atransport}
    {p : Apacket} {D : Daemon} {f : Int × Daemon → Except Stop β} {g : β → Moment} {Q : β → Prop}
    (hloop : D.loop = m.d.loop) (howner : D.owner = m.d.owner) (hconfig : D.config = m.d.config)
    (htr : D.transports = m.d.transports) (hx : m.d.transports t = some x)
    (hq : m.d.sockets r = some q) (hqD : D.sockets r = some q) (hops : q.ops = .remote)
    (ht : q.transport = some t) (hp : q.peer = some a) (hs : D.sockets a = some s)
    (hf : m.SendsTo t x r q (wrtePacket p s.id q.id) s → Explains e D₀ g m (f (1,
      (D.setTransport t { x with toInput := x.toInput ++ [wrtePacket p s.id q.id] }).emit
        (.sent t (some r) (wrtePacket p s.id q.id)))) Q) :
    Explains e D₀ g m (D.enqueue r p >>= f) Q := by
  rw [enqueue, deref_bind hqD, hops]
  simp only
  rw [remoteSocketEnqueue, deref_bind hqD, peerOf_bind hp, deref_bind hs, ht, bind_assoc]
  exact sendPacket_bind hloop howner hconfig htr hx (maySend_of_remote hq hops ht)
    fun hopen => hf ⟨hq, hops, ht, hx, hopen, rfl, rfl, rfl⟩

/-- The peer of a JDWP socket is a remote socket. -/
lemma Wf.jdwp_peer {p : Addr} (h : Wf m) (hs : m.d.sockets a = some s) (ha : a ∉ m.orphans)
    (hops : s.ops = .jdwp ∨ s.ops = .tracker) (hp : s.peer = some p) :
    ∃ q, m.d.sockets p = some q ∧ q.peer = some a ∧ q.ops = .remote ∧ p ∉ m.orphans ∧ p ≠ a := by
  obtain ⟨hpX, q, hq, hback, hpairs⟩ := h.peers.paired a s p ha hs hp
  have hrem : q.ops = .remote := by
    rcases hops with hops | hops
    all_goals
      rw [hops] at hpairs
      revert hpairs
      cases q.ops <;> simp [SocketOps.pairs]
  refine ⟨q, hq, hback, hrem, hpX, ?_⟩
  rintro rfl
  rw [hs, Option.some.injEq] at hq
  rw [hq, hrem] at hops
  rcases hops with hops | hops <;> cases hops

/-! ## `enqueue` of sockets with a descriptor -/

/-- The moment after `enqueue`, by its result: 0 stands for a packet that is done with. -/
def Moment.owing (m : Moment) (a : Addr) (r : Int × Daemon) : Moment :=
  if r.1 = 0 then { m with d := r.2, owed := some a } else m.to r.2

/-- What `enqueue` on a socket in the list does. -/
structure Enqueued (D : Daemon) (r : Int × Daemon) : Prop where
  quiet : Quiet D r.2
  done : r.1 = 0 → r.2.sockets = D.sockets ∧ r.2.loop = D.loop ∧ r.2.owner = D.owner ∧
    r.2.transports = D.transports

/-- Linking a packet, of which `out` has been written. -/
lemma linkPacket_explains {p : Apacket} (out : List UInt8) (h : Wf m)
    (hs : m.d.sockets a = some s) (hfd : s.ops.isFd = true) (ha : a ∉ m.orphans)
    (hc : s.closing = false)
    (hout : s.pkts ≠ [] ∧ out = [] ∨ s.pkts = [] ∧ p.remaining ≠ []) (hcause : Delivers e D₀ m a)
    (hblock : s.pkts = [] → Blocks e D₀ a) :
    Explains e D₀ (m.owing a) m
      ((m.d.emit (.enqueued a (out ++ p.remaining) out)).linkPacket a p) (Enqueued m.d) := by
  rw [linkPacket, deref_bind (D := m.d.emit (.enqueued a (out ++ p.remaining) out)) hs]
  simp only [onLoop, setSocket, emit]
  cases hadd : Loop.fdeventAdd (.socket a) fdeWrite m.d.loop with
  | error r => exact ⟨m, .refl, stopsAt_epollCtl hadd⟩
  | ok L =>
    have hlow := @Loop.has_add (m.d.loop.mem (.socket a)).state fdeWrite 0x00fc#16 (by decide)
    rw [h.loop.low a, show has fdeWrite 0x00fc#16 = false by decide, Bool.or_false] at hlow
    have hread := @Loop.has_add (m.d.loop.mem (.socket a)).state fdeWrite fdeRead (by decide)
    rw [show has fdeWrite fdeRead = false by decide, Bool.or_false] at hread
    exact .ok (.single (.enqueueLink m a s p out _ L ha hs hfd hc hout
      (h.loop.installed a s ha hs hfd) (Loop.fdeventSet_spec hadd) hlow hread hcause hblock))
      ⟨⟨rfl, rfl, rfl, rfl, rfl, rfl, rfl, fun _ => rfl⟩, fun hr => by cases hr⟩

/-- A failed write closes the socket. -/
lemma closeFailed_explains {out bs : List UInt8} (h : Wf m) (hs : m.d.sockets a = some s)
    (ha : a ∉ m.orphans) (hc : s.closing = false)
    (hcause : ∀ r q, s.peer = some r → m.d.sockets r = some q → q.ops = .remote →
      LocalClose e D₀) :
    Explains e D₀ m.to m (((m.d.emit (.enqueued a bs out)).emit (.writeFailed a)).close a)
      (Shut m.d a s) := by
  obtain ⟨m₁, hpath, hd, hsev, hto⟩ := sever_explains (n := 0) h hs ha
    (fun hcl => absurd (hc.symm.trans hcl) (by decide)) hcause
  -- the socket is as good as closed when the failure is noted
  have hnotes : ReflTransGen (Effect e D₀) m₁
      (m₁.to ((m₁.d.emit (.enqueued a bs out)).emit (.writeFailed a))) :=
    (ReflTransGen.single (.note m₁ (.enqueued a bs out) hsev.doomed.orphan)).tail
      (.note _ (.writeFailed a) trivial)
  have hsev' : Severed e D₀ (closeSocket 1)
      (m₁.to ((m₁.d.emit (.enqueued a bs out)).emit (.writeFailed a))) a s :=
    hsev.transfer (wf_of_path hnotes hsev.wf) hsev.doomed.live rfl rfl id rfl rfl
      (fun _ _ => rfl) (fun _ _ hb => hb) rfl rfl
  have hclose := closeSocket_explains hsev'
  have hto' : Moment.withoutBoth
      (m₁.to ((m₁.d.emit (.enqueued a bs out)).emit (.writeFailed a))) a s = m.to := funext hto
  rw [hto'] at hclose
  refine .of_path (hpath.trans hnotes) ?_
  rw [← hd]
  exact hclose.mono fun D' _ hD' =>
    hD'.start ⟨rfl, rfl, rfl, rfl, rfl, rfl, rfl, fun _ => rfl⟩ rfl rfl rfl rfl

/-- `local_socket_enqueue` of the payload of an `A_WRTE`. -/
lemma localSocketEnqueue_explains {t : TAddr} {p p₀ : Apacket} (h : Wf m)
    (hpay : Apacket.remaining { p₀ with ptr := 0 } = p.payload)
    (hs : m.d.sockets a = some s) (hfd : s.ops.isFd = true) (ha : a ∉ m.orphans)
    (hc : s.closing = false) (howed : m.owed = none) (hreach : Reaches e D₀ t p a)
    (hcmd : p.msg.command = aWrte) (htrace : m.d.trace = .received t p :: D₀.trace)
    (hsock : m.d.sockets = D₀.sockets) (hwrites : m.d.io.writes = e.io.writes) :
    Explains e D₀ (m.owing a) m (m.d.localSocketEnqueue a p₀) (Enqueued m.d) := by
  have hcause : Delivers e D₀ m a := ⟨t, p, hreach, hcmd, htrace, hsock⟩
  rw [localSocketEnqueue, deref_bind hs]
  simp only
  generalize ({ p₀ with ptr := 0 } : Apacket) = p' at hpay ⊢
  split
  case isTrue hq =>
    exact linkPacket_explains [] h hs hfd ha hc (.inl ⟨hq, rfl⟩) hcause fun hnil =>
      absurd hnil hq
  case isFalse hq =>
    rw [not_not] at hq
    rcases hw : writeLoop p'.remaining m.d.io.writes with ⟨out, w, ws⟩
    obtain ⟨hout, hdone⟩ := remaining_writeLoop hw
    have henv : Effect e D₀ m _ := .env m { m.d.io with writes := ws } m.d.nextPacket
    set m₁ : Moment := m.to { m.d with io := { m.d.io with writes := ws } } with hm₁
    have hwf : Wf m₁ := henv.wf h
    refine .of_path (.single henv) ?_
    cases w with
    | done =>
      have hall : p'.remaining = out := by
        rw [hdone.mp rfl, List.append_nil] at hout
        exact hout
      have hput : Effect e D₀ m₁ _ := .enqueueDone m₁ a s out ha hs hfd hc hq howed hcause
      rw [hall]
      refine .ok ((ReflTransGen.single hput).tail (.note _ (.put p'.addr) trivial)) ?_
      exact ⟨⟨rfl, rfl, rfl, rfl, rfl, rfl, rfl, fun _ => rfl⟩, fun _ => ⟨rfl, rfl, rfl, rfl⟩⟩
    | again =>
      have hrest : (advance p' out.length).remaining ≠ [] := fun hnil => by
        cases hdone.mpr hnil
      have hlink : Explains e D₀ (m₁.owing a) m₁ _ (Enqueued m₁.d) :=
        linkPacket_explains out hwf hs hfd ha hc (.inr ⟨hq, hrest⟩) hcause fun _ =>
          ⟨t, p, hreach, hcmd, by rw [← hpay, ← hwrites, hw]⟩
      rw [← hout] at hlink
      refine hlink.mono fun r _ hr => ⟨Quiet.trans ?_ hr.quiet, hr.done⟩
      exact ⟨rfl, rfl, rfl, rfl, rfl, rfl, rfl, fun _ => rfl⟩
    | failed =>
      have hlocal : ∀ r q, s.peer = some r → m₁.d.sockets r = some q → q.ops = .remote →
          LocalClose e D₀ := by
        intro r q hp hr hrem
        refine ⟨a, s, r, q, hsock ▸ hs, hp, hsock ▸ hr, hrem, .wrte t p hreach hcmd hfd hq ?_⟩
        rw [← hpay, ← hwrites, hw]
      refine Explained.bind (closeFailed_explains (m := m₁) hwf hs ha hc hlocal) ?_
      intro D' _ hD'
      refine .ok .refl ⟨Quiet.trans ?_ hD'.quiet, fun hr => by cases hr⟩
      exact ⟨rfl, rfl, rfl, rfl, rfl, rfl, rfl, fun _ => rfl⟩

/-- Input on a JDWP socket closes it, through its peer. -/
lemma jdwpSocketEnqueue_explains {p : Apacket} (h : Wf m) (hs : m.d.sockets a = some s)
    (ha : a ∉ m.orphans) (hops : s.ops = .jdwp ∨ s.ops = .tracker) :
    Explains e D₀ (m.owing a) m (m.d.jdwpSocketEnqueue a p) (Enqueued m.d) := by
  have hstep : Effect e D₀ m (m.to (m.d.putApacket p)) := .note m (.put p.addr) trivial
  rw [jdwpSocketEnqueue]
  refine .of_path (.single hstep) ?_
  rw [deref_bind (D := m.d.putApacket p) hs]
  rcases Option.eq_none_or_eq_some s.peer with hp | ⟨r, hp⟩
  · rw [peerOf, hp]
    exact ⟨_, .refl, trivial⟩
  · rw [peerOf_bind hp]
    obtain ⟨q, hq, hback, hrem, hrX, -⟩ := h.jdwp_peer hs ha hops hp
    refine Explained.bind (closeOther_explains (m := m.to (m.d.putApacket p)) (hstep.wf h) hq hrX
      hback (.inl hrem)) ?_
    intro D' _ hD'
    refine .ok .refl ⟨Quiet.trans ?_ hD'.quiet, fun hr => by cases hr⟩
    exact ⟨rfl, rfl, rfl, rfl, rfl, rfl, rfl, fun _ => rfl⟩

/-- `s->enqueue(s,p)` of a socket in the list, for an `A_WRTE`. -/
lemma enqueueListed_explains {t : TAddr} {p : Apacket} (h : Wf m) (hX : m.orphans = ∅)
    (hl : a ∈ m.d.localSocketList) (howed : m.owed = none) (hreach : Reaches e D₀ t p a)
    (hcmd : p.msg.command = aWrte) (htrace : m.d.trace = .received t p :: D₀.trace)
    (hsock : m.d.sockets = D₀.sockets) (hwrites : m.d.io.writes = e.io.writes) :
    Explains e D₀ (m.owing a) m (m.d.enqueue a { p with len := p.msg.dataLength.toNat })
      (Enqueued m.d) := by
  have ha : a ∉ m.orphans := by
    rw [hX]
    exact Set.notMem_empty a
  obtain ⟨s, hs, hc, hlocal⟩ := h.peers.listed a hl
  have hfd : s.ops.isFd = true → Explains e D₀ (m.owing a) m
      (m.d.localSocketEnqueue a { p with len := p.msg.dataLength.toNat }) (Enqueued m.d) :=
    fun hfd => localSocketEnqueue_explains h rfl hs hfd ha hc howed hreach hcmd htrace hsock
      hwrites
  rw [enqueue, deref_bind hs]
  cases hops : s.ops with
  | fd => exact hfd (by rw [hops]; rfl)
  | fdNotify => exact hfd (by rw [hops]; rfl)
  | jdwp => exact jdwpSocketEnqueue_explains h hs ha (.inl hops)
  | tracker => exact jdwpSocketEnqueue_explains h hs ha (.inr hops)
  | remote => rw [hops] at hlocal; cases hlocal
  | smart => rw [hops] at hlocal; cases hlocal

/-! ## Smart sockets -/

/-- The transport a smart socket acquires is registered and connected. -/
lemma acquireLoop_some {D : Daemon} {c : TransportChoice} {t : TAddr} {err' : String}
    (ts : List TAddr) (result : Option TAddr) (err : String)
    (h : acquireLoop c D ts result err = (some t, err')) :
    result = some t ∨ t ∈ ts ∧ ∃ x, D.transports t = some x := by
  induction ts generalizing result err with
  | nil =>
    rw [acquireLoop, Prod.mk.injEq] at h
    exact .inl h.1
  | cons u ts ih =>
    have htail : (t ∈ ts ∧ ∃ x, D.transports t = some x) →
        t ∈ u :: ts ∧ ∃ x, D.transports t = some x := fun ⟨hm, hx⟩ => ⟨.tail _ hm, hx⟩
    unfold acquireLoop at h
    split at h
    · exact (ih _ _ h).imp_right htail
    case h_2 x hx =>
      split at h
      · exact (ih _ _ h).imp_right htail
      split at h
      · split at h
        · rw [Prod.mk.injEq] at h
          cases h.1
        · rcases ih _ _ h with hu | hrest
          · rw [Option.some.injEq] at hu
            subst hu
            exact .inr ⟨List.mem_cons_self, x, hx⟩
          · exact .inr (htail hrest)
      · exact (ih _ _ h).imp_right htail

lemma acquireOneTransport_ok {D : Daemon} {c : TransportChoice} {t : TAddr}
    (h : D.acquireOneTransport c = .ok t) :
    t ∈ D.transportList ∧ ∃ x, D.transports t = some x ∧ x.connectionState ≠ .offline := by
  unfold acquireOneTransport at h
  split at h
  · cases h
  case h_2 u err hloop =>
    split at h
    · cases h
    case isFalse hon =>
      cases h
      rcases acquireLoop_some _ _ _ hloop with hno | ⟨hmem, x, hx⟩
      · cases hno
      · refine ⟨hmem, x, hx, fun hoff => hon ?_⟩
        simp [hx, hoff]

/-- While no packet is handled, a packet that is sent for no stream only must be no `A_CLSE`. -/
lemma about_of_idle {p : Apacket} {t : TAddr} (hidle : m.handling = none)
    (hcmd : p.msg.command ≠ aClse) : m.About e D₀ none p t := by
  refine ⟨fun hclse => absurd hclse hcmd, fun u q hserve => ?_⟩
  rw [hidle] at hserve
  cases hserve

/-- `connect_to_remote` on behalf of a socket of a connected transport. -/
lemma connectToRemote_explains {t : TAddr} {text : List UInt8} (hs : m.d.sockets a = some s)
    (ht : s.transport = some t) (hlist : t ∈ m.d.transportList) {x : Atransport}
    (hx : m.d.transports t = some x) (hon : x.connectionState ≠ .offline)
    (hidle : m.handling = none) :
    Explains e D₀ m.to m (m.d.connectToRemote a text) fun D' => Quiet m.d D' ∧
      D'.sockets = m.d.sockets ∧ D'.loop = m.d.loop ∧
      D'.localSocketList = m.d.localSocketList := by
  rw [connectToRemote, deref_bind hs]
  simp only [getApacket]
  split
  · exact ⟨m, .refl, trivial⟩
  · have hstep : Effect e D₀ m _ := .env m m.d.io (m.d.nextPacket + 1)
    refine .of_path (.single hstep) ?_
    rw [ht]
    refine (sendPacket_explains (m := m.to { m.d with nextPacket := m.d.nextPacket + 1 }) hx
      (.inr (.inr ⟨hlist, x, hx, hon⟩))
      (about_of_idle hidle (by show aOpen ≠ aClse; decide))
      (show aOpen ≠ aWrte by decide)
      (fun hsync => by cases hsync)).mono ?_
    rintro D' - rfl
    refine ⟨Quiet.trans ?_ (sent_quiet (D := { m.d with nextPacket := m.d.nextPacket + 1 }) hx),
      rfl, rfl, rfl⟩
    exact ⟨rfl, rfl, rfl, rfl, rfl, rfl, rfl, fun _ => rfl⟩

/-- The client of a smart socket that has been handed over, to wait on `t`. -/
structure HandedOver (D : Daemon) (a : Addr) (s : Asocket) (t : TAddr) (D' : Daemon) : Prop where
  quiet : Quiet D D'
  live : D'.sockets a = some { s with ops := .fdNotify, peer := none, transport := some t }
  list : a ∈ D'.localSocketList
  mem : D'.loop.mem (.socket a) = D.loop.mem (.socket a)

/-- The moment in which `a` is still being worked on. -/
def Moment.withOrphan (m : Moment) (a : Addr) (D : Daemon) : Moment :=
  { m with d := D, orphans := insert a m.orphans }

/-- What `smart_socket_enqueue` does to the client `a` of the socket, by its result; a client is
handed over only if `P`. -/
structure SmartEnqueued (P : Prop) (D : Daemon) (a : Addr) (s : Asocket) (r : Int × Daemon) :
    Prop where
  quiet : Quiet D r.2
  result : r.1 = -1 ∨ r.1 = 0 ∨ r.1 = 1
  wait : r.1 = 0 → r.2.sockets a = some s ∧ r.2.loop = D.loop ∧
    ∀ ss q, s.peer = some ss → r.2.sockets ss = some q → q.ops ≠ .remote
  handedOver : r.1 = 1 → P ∧ ∃ t, HandedOver D a s t r.2

/-- The moment after `smart_socket_enqueue`. -/
def Moment.smart (m : Moment) (a : Addr) (r : Int × Daemon) : Moment :=
  if r.1 = 1 then m.withOrphan a r.2 else m.to r.2

/-- Something that concerns neither the client nor the event loop happened before. -/
lemma SmartEnqueued.start {P : Prop} {D D₁ : Daemon} {r : Int × Daemon}
    (h : SmartEnqueued P D₁ a s r) (hq : Quiet D D₁) (hloop : D₁.loop = D.loop) :
    SmartEnqueued P D a s r := by
  refine ⟨hq.trans h.quiet, h.result, fun hr => hloop ▸ h.wait hr, fun hr => ?_⟩
  obtain ⟨hP, t, ht⟩ := h.handedOver hr
  exact ⟨hP, t, hq.trans ht.quiet, ht.live, ht.list, hloop ▸ ht.mem⟩

lemma smartSocketHandOver_explains {P : Prop} {ss : Addr} {q : Asocket} {t : TAddr}
    {x : Atransport} {text : List UInt8} (hP : P) (h : Wf m) (ha : a ∉ m.orphans)
    (hs : m.d.sockets a = some s) (hops : s.ops = .fd) (hp : s.peer = some ss)
    (hq : m.d.sockets ss = some q) (hkind : q.ops = .smart) (hlist : t ∈ m.d.transportList)
    (hx : m.d.transports t = some x) (hon : x.connectionState ≠ .offline)
    (hidle : m.handling = none) :
    Explains e D₀ (m.smart a) m (m.d.smartSocketHandOver ss a t text)
      (SmartEnqueued P m.d a s) := by
  obtain ⟨hssX, q', hq', hback, hpairs⟩ := h.peers.paired a s ss ha hs hp
  rw [hq, Option.some.injEq] at hq'
  subst hq'
  have hclosing := h.paired_open hs ha hp
  have hsmart : q.closing = false := h.paired_open hq hssX hback
  have hne : ss ≠ a := by
    rintro rfl
    rw [hs, Option.some.injEq] at hq
    rw [← hq, hops] at hpairs
    cases hpairs
  have hl := h.peers.inList a s ha hs (by rw [hops]; rfl) hclosing
  have hin := h.loop.installed a s ha hs (by rw [hops]; rfl)
  have hsever : Effect e D₀ m _ := .sever m a ss s hs hp ha
  have hhand : Effect e D₀ { m with orphans := insert a (insert ss m.orphans) } _ :=
    .handOver _ a s t hs (Set.mem_insert ..) hops hclosing hl hin
  have hwf := hhand.wf (hsever.wf h)
  set s₁ : Asocket := { s with ops := .fdNotify, peer := none, transport := some t } with hs₁
  set m₁ : Moment := { m with
    d := m.d.setSocket a s₁
    orphans := insert a (insert ss m.orphans) } with hm₁
  rw [smartSocketHandOver, deref_bind hs]
  refine .of_path ((ReflTransGen.single hsever).tail hhand) ?_
  refine Explained.bind (connectToRemote_explains (m := m₁) (setSocket_sockets_self ..) rfl hlist
    hx hon hidle) ?_
  rintro D₂ hpath ⟨hquiet, hsock, hloop, hlocal⟩
  have hqD : D₂.sockets ss = some q := by
    rw [hsock]
    exact (update_of_ne hne ..).trans hq
  rw [deref_bind (D := D₂) hqD]
  have hunpeer : Effect e D₀ (m₁.to D₂) _ := .unpeer _ ss q hqD (.inr (Set.mem_insert ..))
  refine .of_path (.single hunpeer) ?_
  have hdoomed : Doomed e D₀ (m₁.to (D₂.setSocket ss { q with peer := none })) ss
      { q with peer := none } := by
    refine ⟨setSocket_sockets_self .., .inr (Set.mem_insert ..), ?_, ?_, ?_⟩
    · intro hfd
      have hfd : q.ops.isFd = true := hfd
      rw [hkind] at hfd
      cases hfd
    · intro hc
      rw [hsmart] at hc
      cases hc
    · intro hrem
      have hrem : q.ops = .remote := hrem
      rw [hkind] at hrem
      cases hrem
  have hX : insert a (insert ss m.orphans) \ {ss} = insert a m.orphans := by
    ext b
    simp only [Set.mem_sdiff, Set.mem_insert_iff, Set.mem_singleton_iff]
    grind
  refine Explained.bind (loneClose 1 _ ss _ (hunpeer.wf (wf_of_path hpath hwf)) hdoomed rfl) ?_
  intro D₃ _ hD₃
  have hquiet₃ : Quiet m.d D₃ := (setSocket_quiet a s₁ m.d).trans
    (hquiet.trans ((setSocket_quiet ss _ D₂).trans hD₃.quiet))
  refine .ok ?_ ⟨hquiet₃, .inr (.inr rfl), fun hr => (by cases hr),
    fun _ => ⟨hP, t, hquiet₃, ?_, ?_, ?_⟩⟩
  · simp only [Moment.without, Moment.smart, Moment.withOrphan, Moment.to, hm₁, hX, if_true]
    exact .refl
  · refine (hD₃.others a hne.symm).trans ((update_of_ne hne.symm ..).trans ?_)
    show D₂.sockets a = _
    rw [hsock]
    exact setSocket_sockets_self ..
  · rw [hD₃.list]
    refine (List.mem_erase_of_ne hne.symm).mpr ?_
    show a ∈ D₂.localSocketList
    rw [hlocal]
    exact hl
  · have hkne : FdeId.socket a ≠ .socket ss := fun heq => hne (FdeId.socket.inj heq).symm
    refine (hD₃.mem _ hkne).trans ?_
    show D₂.loop.mem _ = _
    rw [hloop]
    rfl

lemma smartSocketFail_explains {P : Prop} {ss : Addr} {q : Asocket} (h : Wf m)
    (hq : m.d.sockets ss = some q) (hss : ss ∉ m.orphans) (hback : q.peer = some a)
    (hkind : q.ops = .smart) :
    Explains e D₀ (m.smart a) m (m.d.smartSocketFail ss) (SmartEnqueued P m.d a s) := by
  rw [smartSocketFail]
  refine Explained.bind (closeOther_explains h hq hss hback (.inr hkind)) fun D' _ hD' => ?_
  exact .ok .refl ⟨hD'.quiet, .inl rfl, fun hr => (by cases hr), fun hr => (by cases hr)⟩

/-- `acquire_one_transport` looks at the transports only. -/
lemma acquireOneTransport_congr {D D' : Daemon} (htr : D'.transports = D.transports)
    (hlist : D'.transportList = D.transportList) (c : TransportChoice) :
    D'.acquireOneTransport c = D.acquireOneTransport c := by
  have hloop : ∀ ts result err, D'.acquireLoop c ts result err = D.acquireLoop c ts result err := by
    intro ts
    induction ts with
    | nil => exact fun _ _ => rfl
    | cons t ts ih =>
      intro result err
      simp only [acquireLoop, htr, ih]
  rw [acquireOneTransport, acquireOneTransport, hloop, htr, hlist]

/-- `smart_socket_enqueue`.  The client is handed over when its request is complete. -/
lemma smartSocketEnqueue_explains {ss : Addr} {q : Asocket} {p : Apacket} {bs : List UInt8}
    (h : Wf m) (ha : a ∉ m.orphans) (hs : m.d.sockets a = some s) (hp : s.peer = some ss)
    (hq : m.d.sockets ss = some q) (hkind : q.ops = .smart) (hidle : m.handling = none)
    (hlen : p.len = bs.length) (hdata : p.data = bs) :
    Explains e D₀ (m.smart a) m (m.d.smartSocketEnqueue ss p)
      (SmartEnqueued (Completes q bs ∧ ∃ t, m.d.acquireOneTransport .any = .ok t) m.d a s) := by
  obtain ⟨hssX, q', hq', hback, hpairs⟩ := h.peers.paired a s ss ha hs hp
  rw [hq, Option.some.injEq] at hq'
  subst hq'
  have hops : s.ops = .fd := by
    rw [hkind] at hpairs
    revert hpairs
    cases s.ops <;> simp [SocketOps.pairs, SocketOps.isLocal]
  have hne : ss ≠ a := by
    rintro rfl
    rw [hs, Option.some.injEq] at hq
    rw [← hq, hops] at hpairs
    cases hpairs
  have hclosing := h.paired_open hs ha hp
  rw [smartSocketEnqueue, deref_bind hq]
  -- the packet that is appended to the first one is put back
  obtain ⟨D₁, hD₁, hpath₁⟩ : ∃ D₁, (if q.pkts = [] then m.d else m.d.putApacket p) = D₁ ∧
      (ReflTransGen (Effect e D₀) m (m.to D₁) ∧ Quiet m.d D₁ ∧ D₁.sockets = m.d.sockets ∧
        D₁.loop = m.d.loop ∧ D₁.transports = m.d.transports ∧
        D₁.transportList = m.d.transportList) := by
    refine ⟨_, rfl, ?_⟩
    split
    · exact ⟨.refl, Quiet.refl _, rfl, rfl, rfl, rfl⟩
    · exact ⟨.single (.note m (.put p.addr) trivial),
        ⟨rfl, rfl, rfl, rfl, rfl, rfl, rfl, fun _ => rfl⟩, rfl, rfl, rfl, rfl⟩
  obtain ⟨hpath₁, hquiet₁, hsock₁, hloop₁, htr₁, htl₁⟩ := hpath₁
  have hwf₁ := wf_of_path hpath₁ h
  have hq₁ : D₁.sockets ss = some q := by rw [hsock₁]; exact hq
  simp only [hD₁]
  refine .of_path hpath₁ ?_
  set P := Completes q bs ∧ ∃ t, m.d.acquireOneTransport .any = .ok t with hP
  cases hgather : gather q p with
  | none =>
    exact (smartSocketFail_explains (m := m.to D₁) hwf₁ hq₁ hssX hback hkind).mono
      fun r _ hr => hr.start hquiet₁ hloop₁
  | some first =>
    simp only
    have hqueue : Effect e D₀ (m.to D₁) _ :=
      .gather _ ss q [first] hq₁ hkind (h.paired_open hq hssX hback)
    set D₂ : Daemon := D₁.setSocket ss { q with pkts := [first] } with hD₂
    have hwf₂ : Wf (m.to D₂) := hqueue.wf hwf₁
    have hq₂ : D₂.sockets ss = some { q with pkts := [first] } := setSocket_sockets_self ..
    have hs₂ : D₂.sockets a = some s := by
      rw [hD₂]
      refine (update_of_ne hne.symm ..).trans ?_
      rw [hsock₁]
      exact hs
    have hquiet₂ : Quiet m.d D₂ := hquiet₁.trans (setSocket_quiet ..)
    refine .of_path (.single hqueue) ?_
    have hfail : Explains e D₀ (m.smart a) (m.to D₂) _ (SmartEnqueued P m.d a s) :=
      (smartSocketFail_explains (m := m.to D₂) hwf₂ hq₂ hssX hback hkind).mono
        fun r _ hr => hr.start hquiet₂ hloop₁
    have hsmart : ∀ r q', s.peer = some r → D₂.sockets r = some q' → q'.ops ≠ .remote := by
      intro r q' hr hq'
      rw [hp, Option.some.injEq] at hr
      rw [← hr, hq₂, Option.some.injEq] at hq'
      rw [← hq', hkind]
      simp
    have hmore : Explains e D₀ (m.smart a) (m.to D₂) (pure (0, D₂)) (SmartEnqueued P m.d a s) :=
      .ok .refl ⟨hquiet₂, .inr (.inl rfl), fun _ => ⟨hs₂, hloop₁, hsmart⟩,
        fun hr => (by cases hr)⟩
    split
    case isTrue => exact hmore
    case isFalse hfour =>
    split
    case h_1 => exact hfail
    case h_2 len hlen' =>
      split
      case isTrue => exact hfail
      case isFalse hrange =>
      split
      case isTrue => exact hmore
      case isFalse hall =>
      rw [peerOf_bind (s := { q with pkts := [first] }) hback]
      split
      case h_1 err _ =>
        -- the reason is written to the client, then both are closed
        obtain ⟨hpath₃, ws, os, heq, hos⟩ := sendfailmsg_explains (e := e) (m := m.to D₂) a err
        refine .of_path hpath₃ ?_
        have hquiet₃ : Quiet m.d ((m.to D₂).d.sendfailmsg a err) := by
          refine hquiet₂.trans ?_
          rw [heq]
          refine ⟨rfl, rfl, rfl, rfl, rfl, rfl, ?_, fun _ => rfl⟩
          show authHistory (os ++ D₂.trace) = _
          rw [authHistory, List.filter_append]
          rw [authHistory] at hos
          rw [hos]
          rfl
        have hq₃ : ((m.to D₂).d.sendfailmsg a err).sockets ss =
            some { q with pkts := [first] } := by
          rw [heq]
          exact hq₂
        have hloop₃ : ((m.to D₂).d.sendfailmsg a err).loop = m.d.loop := by
          rw [heq]
          exact hloop₁
        exact (smartSocketFail_explains (m := (m.to D₂).to _) (wf_of_path hpath₃ hwf₂) hq₃ hssX
          hback hkind).mono fun r _ hr => hr.start hquiet₃ hloop₃
      case h_2 t ht =>
        obtain ⟨hlist, x, hx, hon⟩ := acquireOneTransport_ok ht
        have hcomplete : Completes q bs := by
          refine ⟨p, first, len, hlen, hdata, hgather, ?_, hlen', ?_, ?_, ?_⟩ <;> omega
        have hacquire := @acquireOneTransport_congr m.d D₂ htr₁ htl₁ .any
        exact (smartSocketHandOver_explains (m := m.to D₂) ⟨hcomplete, t, hacquire ▸ ht⟩ hwf₂ ha hs₂
          hops hp hq₂ hkind hlist hx hon hidle).mono fun r _ hr => hr.start hquiet₂ hloop₁

end Data

end Adbd
