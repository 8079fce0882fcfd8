import Adbd.Effects.Consistent

/-!
# Closing, as changes

Each function of `Adbd.Model.Close` is a sequence of elementary changes.  A socket that is
closed is orphaned first, together with its peer; the peer is closed on its own, without a
peer, and then the socket itself.  So a close through the pointer never nests more than twice.

The lemmas also say what a close leaves alone.
-/

namespace Adbd

open Function FlagWord Transition Relation

/-- The same moment with another state. -/
def Moment.to (m : Moment) (D : Daemon) : Moment := { m with d := D }

/-- The computation `x`, started at `m`, is a sequence of changes of the step `e` from `D₀`. -/
abbrev Explains (e : Event) (D₀ : Daemon) {β : Type} (p : β → Moment) (m : Moment)
    (x : Except Stop β) (Q : β → Prop) : Prop :=
  Explained (Effect e D₀) StopsAt p m x Q

/-! ## Frames -/

/-- A transport without what closing a socket can change of it. -/
def Atransport.strip (x : Atransport) : Atransport := { x with disconnects := [], toInput := [] }

/-- What closing a socket leaves alone. -/
structure Quiet (D D' : Daemon) : Prop where
  nextAddr : D'.nextAddr = D.nextAddr
  config : D'.config = D.config
  registration : D'.registration = D.registration
  transportList : D'.transportList = D.transportList
  frameworkFd : D'.frameworkFd = D.frameworkFd
  reads : D'.io.reads = D.io.reads
  history : authHistory D'.trace = authHistory D.trace
  transport : ∀ t, (D'.transports t).map Atransport.strip = (D.transports t).map Atransport.strip

lemma Quiet.refl (D : Daemon) : Quiet D D := ⟨rfl, rfl, rfl, rfl, rfl, rfl, rfl, fun _ => rfl⟩

lemma Quiet.trans {D D' D'' : Daemon} (h : Quiet D D') (h' : Quiet D' D'') : Quiet D D'' :=
  ⟨h'.nextAddr.trans h.nextAddr, h'.config.trans h.config, h'.registration.trans h.registration,
    h'.transportList.trans h.transportList, h'.frameworkFd.trans h.frameworkFd,
    h'.reads.trans h.reads, h'.history.trans h.history,
    fun t => (h'.transport t).trans (h.transport t)⟩

lemma setSocket_quiet (a : Addr) (s : Asocket) (D : Daemon) : Quiet D (D.setSocket a s) :=
  ⟨rfl, rfl, rfl, rfl, rfl, rfl, rfl, fun _ => rfl⟩

lemma getApacket_quiet (D : Daemon) : Quiet D D.getApacket.2 :=
  ⟨rfl, rfl, rfl, rfl, rfl, rfl, rfl, fun _ => rfl⟩

/-- A transport survives, with the fields that closing a socket does not touch. -/
lemma Quiet.transport_some {D D' : Daemon} (h : Quiet D D') {t : TAddr} {x : Atransport}
    (hx : D.transports t = some x) : ∃ y, D'.transports t = some y ∧ y.strip = x.strip := by
  have := h.transport t
  rw [hx, Option.map_some] at this
  obtain ⟨y, hy, hstrip⟩ := Option.map_eq_some_iff.mp this
  exact ⟨y, hy, hstrip⟩

/-- Closing the socket `a`, which was `s`, without touching another one. -/
structure Closed (D : Daemon) (a : Addr) (s : Asocket) (D' : Daemon) : Prop where
  quiet : Quiet D D'
  others : ∀ b, b ≠ a → D'.sockets b = D.sockets b
  gone : D'.sockets a = none ∨ ∃ s', D'.sockets a = some s' ∧ s'.closing = true
  list : D'.localSocketList = D.localSocketList.erase a
  mem : ∀ k, k ≠ .socket a → D'.loop.mem k = D.loop.mem k
  transports : s.ops ≠ .remote → D'.transports = D.transports

/-! ## Paths -/

section Paths

variable {e : Event} {D₀ : Daemon} {m : Moment}

lemma wf_of_path {m' : Moment} (hp : ReflTransGen (Effect e D₀) m m') (h : Wf m) : Wf m' :=
  path_invariant (fun _ _ hm he => he.wf hm) hp h

/-- A packet was given back. -/
def Obs.isPut : Obs → Bool
  | .put _ => true
  | _ => false

/-- Packets are given back. -/
lemma path_notes (os : List Obs) (hos : ∀ o ∈ os, o.isPut = true) :
    ReflTransGen (Effect e D₀) m (m.to { m.d with trace := os ++ m.d.trace }) := by
  induction os with
  | nil => exact .refl
  | cons o os ih =>
    refine (ih fun o' ho' => hos o' (List.mem_cons_of_mem _ ho')).tail ?_
    have ho := hos o List.mem_cons_self
    refine Effect.note (m.to { m.d with trace := os ++ m.d.trace }) o ?_
    cases o with
    | put => exact trivial
    | _ => cases ho

lemma putApackets_eq (ps : List Apacket) (D : Daemon) :
    ∃ os : List Obs, (∀ o ∈ os, o.isPut = true) ∧
      D.putApackets ps = { D with trace := os ++ D.trace } := by
  induction ps generalizing D with
  | nil => exact ⟨[], by simp, rfl⟩
  | cons p ps ih =>
    obtain ⟨os, hos, heq⟩ := ih (D.putApacket p)
    refine ⟨os ++ [.put p.addr], ?_, ?_⟩
    · intro o ho
      rw [List.mem_append, List.mem_singleton] at ho
      rcases ho with ho | rfl
      · exact hos o ho
      · rfl
    · show (D.putApacket p).putApackets ps = _
      rw [heq]
      simp [Daemon.putApacket, Daemon.emit]

lemma authHistory_quiet (os tr : List Obs) (hos : ∀ o ∈ os, o.isPut = true) :
    authHistory (os ++ tr) = authHistory tr := by
  have hnil : authHistory os = [] := by
    refine List.filter_eq_nil_iff.mpr fun o ho => ?_
    have := hos o ho
    cases o <;> simp_all [Obs.isPut]
  rw [authHistory, List.filter_append]
  rw [authHistory] at hnil
  rw [hnil, List.nil_append, authHistory]

end Paths

/-! ## Memory -/

/-- The history grows along a path. -/
lemma trace_of_path {e : Event} {D₀ : Daemon} {m m' : Moment}
    (hp : ReflTransGen (Effect e D₀) m m') : m.d.trace <:+ m'.d.trace := by
  induction hp with
  | refl => exact List.suffix_rfl
  | tail _ he ih => exact ih.trans he.trace_suffix

/-- The settings do not change along a path. -/
lemma config_of_path {e : Event} {D₀ : Daemon} {m m' : Moment}
    (hp : ReflTransGen (Effect e D₀) m m') : m'.d.config = m.d.config := by
  induction hp with
  | refl => rfl
  | tail _ he ih => exact he.config.trans ih

namespace Daemon

variable {D : Daemon} {a : Addr} {s : Asocket} {t : TAddr} {x : Atransport} {β : Type}

lemma deref_eq (hs : D.sockets a = some s) : D.deref a = .ok s := by
  rw [deref, hs]

lemma derefT_eq (hx : D.transports t = some x) : D.derefT t = .ok x := derefT_eq_ok.mpr hx

lemma deref_bind (hs : D.sockets a = some s) (f : Asocket → Except Stop β) :
    (D.deref a >>= f) = f s := by
  rw [deref_eq hs]
  rfl

lemma derefT_bind (hx : D.transports t = some x) (f : Atransport → Except Stop β) :
    (D.derefT t >>= f) = f x := by
  rw [derefT_eq hx]
  rfl

@[simp] lemma setSocket_sockets_self (a : Addr) (s : Asocket) (D : Daemon) :
    (D.setSocket a s).sockets a = some s :=
  update_self ..

lemma freeSocket_sockets_of_ne {b : Addr} (h : b ≠ a) :
    (D.freeSocket a).sockets b = D.sockets b :=
  update_of_ne h ..

lemma setSocket_eq_self (hs : D.sockets a = some s) : D.setSocket a s = D := by
  rw [setSocket, ← hs, update_eq_self]

/-- `remove_socket` takes the socket off whichever list it is in. -/
lemma removeSocket_eq (hs : D.sockets a = some s) : ∃ i, D.removeSocket a =
    .ok { D.setSocket a { s with id := i } with
      localSocketList := D.localSocketList.erase a
      localSocketClosingList := D.localSocketClosingList.erase a } := by
  rw [removeSocket, deref_bind hs]
  split
  · exact ⟨0, rfl⟩
  case isFalse hno =>
    rw [not_or] at hno
    refine ⟨s.id, ?_⟩
    rw [List.erase_of_not_mem hno.1, List.erase_of_not_mem hno.2]
    exact congrArg Except.ok (setSocket_eq_self hs).symm

end Daemon

/-! ## Operations of the event loop -/

section Operations

variable {e : Event} {D₀ : Daemon} {m : Moment} {a : Addr} {s : Asocket} {β : Type}

/-- An operation that either makes one change or stops the daemon. -/
lemma onLoop_explains {f : Loop FdeId → Except Stop (Loop FdeId)} {p : Daemon → Moment}
    {Q : Daemon → Prop}
    (hok : ∀ L, f m.d.loop = .ok L →
      ReflTransGen (Effect e D₀) m (p { m.d with loop := L }) ∧ Q { m.d with loop := L })
    (herr : ∀ r, f m.d.loop = .error r → StopsAt m r) :
    Explains e D₀ p m (m.d.onLoop f) Q := by
  rw [Daemon.onLoop]
  cases hf : f m.d.loop with
  | ok L => exact hok L hf
  | error r => exact ⟨m, .refl, herr r hf⟩

lemma stopsAt_fatalFd {L : Loop FdeId} {k : FdeId} {r : Stop}
    (h : L.fdeventRemove k = .error r) : StopsAt m r := by
  obtain ⟨n, rfl⟩ := Loop.fdeventRemove_error h
  trivial

lemma stopsAt_epollCtl {L : Loop FdeId} {k : FdeId} {ev : BitVec 16} {r : Stop}
    (h : L.fdeventSet k ev = .error r) : StopsAt m r := by
  obtain ⟨n, rfl⟩ := Loop.fdeventSet_error h
  trivial

/-! ## `remove_socket` -/

/-- `remove_socket` of an orphan takes it off both lists. -/
lemma removeSocket_explains (hs : m.d.sockets a = some s) (ha : a ∈ m.orphans) :
    Explains e D₀ m.to m (m.d.removeSocket a) fun D' => ∃ i,
      D' = { m.d.setSocket a { s with id := i } with
        localSocketList := m.d.localSocketList.erase a
        localSocketClosingList := m.d.localSocketClosingList.erase a } := by
  rw [Daemon.removeSocket, Daemon.deref_bind hs]
  split
  case isTrue hl => exact .ok (.single (.unname m a s hs hl ha)) ⟨0, rfl⟩
  case isFalse hno =>
    rw [not_or] at hno
    refine .ok .refl ⟨s.id, ?_⟩
    rw [List.erase_of_not_mem hno.1, List.erase_of_not_mem hno.2]
    exact (Daemon.setSocket_eq_self hs).symm

/-! ## Sockets with a descriptor -/

/-- What is known of an orphan about to be closed. -/
structure Doomed (e : Event) (D₀ : Daemon) (m : Moment) (a : Addr) (s : Asocket) : Prop where
  live : m.d.sockets a = some s
  orphan : a ∈ m.orphans
  installed : s.ops.isFd = true → m.d.loop.Installed (.socket a)
  flushing : s.closing = true → s.ops.isFd = true ∧ s.peer = none ∧ MayFree e D₀ a s
  /-- A remote socket that has lost its peer lost it to a local close. -/
  cause : s.ops = .remote → s.peer = none → LocalClose e D₀

/-- The moment after the orphan `a` is gone. -/
def Moment.without (m : Moment) (a : Addr) (D : Daemon) : Moment :=
  { m with d := D, orphans := m.orphans \ {a} }

lemma localSocketDestroy_explains (h : Wf m) (hs : m.d.sockets a = some s) (ha : a ∈ m.orphans)
    (hops : s.ops ≠ .remote) (hfree : MayFree e D₀ a s)
    (htr : s.ops = .tracker → BypassesTracker e D₀ a) :
    Explains e D₀ (m.without a) m (m.d.localSocketDestroy a) (Closed m.d a s) := by
  rw [Daemon.localSocketDestroy, Daemon.deref_bind hs]
  refine Explained.bind (p := m.to) (Q := fun D => ∃ L, D = { m.d with loop := L } ∧
    Loop.RemoveSpec (.socket a) m.d.loop L) (onLoop_explains (fun L hL => ?_)
    fun r hr => stopsAt_fatalFd hr) ?_
  · have hspec := Loop.fdeventRemove_spec hL
    exact ⟨.single (.uninstall m a L (by rw [hs]; rfl) ha hspec), L, rfl, hspec⟩
  rintro D hpath ⟨L, rfl, hspec⟩
  obtain ⟨os, hos, hput⟩ :=
    putApackets_eq s.pkts (Daemon.emit (.destroyed a s.queued) { m.d with loop := L })
  set m₁ : Moment := m.to { m.d with loop := L } with hm₁
  set D₂ : Daemon := { m.d with loop := L, trace := os ++ .destroyed a s.queued :: m.d.trace }
    with hD₂
  have hpath₂ : ReflTransGen (Effect e D₀) m₁ (m.to D₂) :=
    (ReflTransGen.single (.destroy m₁ a s hs hfree)).trans
      (path_notes (m := m.to (Daemon.emit (.destroyed a s.queued) { m.d with loop := L })) os hos)
  refine .of_path hpath₂ ?_
  simp only [hput]
  refine Explained.bind (removeSocket_explains (m := m.to D₂) hs ha) ?_
  rintro D₃ hpath₃ ⟨i, rfl⟩
  have hwf := wf_of_path hpath₃ (wf_of_path hpath₂ (wf_of_path hpath h))
  have hnl : a ∉ m.d.localSocketList.erase a := h.peers.listNodup.not_mem_erase
  have hnc : a ∉ m.d.localSocketClosingList.erase a := h.peers.closingNodup.not_mem_erase
  have hin : ¬L.Installed (.socket a) := by
    rw [Loop.Installed, hspec.mem_self, has_zero_left]
    decide
  have hfree₃ : s.closing = true → MayFree e D₀ a { s with id := i } := fun _ => hfree
  have hfreed : Effect e D₀ _ _ := .free (m.to { D₂.setSocket a { s with id := i } with
      localSocketList := m.d.localSocketList.erase a
      localSocketClosingList := m.d.localSocketClosingList.erase a }) a { s with id := i }
    (Daemon.setSocket_sockets_self ..) ha hops hnl hnc hin hfree₃ htr
  split
  · exact ⟨_, .single hfreed, trivial⟩
  · refine .ok (.single hfreed) ⟨⟨rfl, rfl, rfl, rfl, rfl, rfl, ?_, fun _ => rfl⟩, ?_, ?_, rfl, ?_,
      fun _ => rfl⟩
    · show authHistory (os ++ _) = _
      rw [authHistory_quiet os _ hos]
      rfl
    · intro b hb
      simp [Moment.to, Daemon.freeSocket, Daemon.setSocket, hD₂, update_of_ne hb]
    · left
      simp [Daemon.freeSocket]
    · intro k hk
      exact hspec.mem_other k hk

/-- The end of `local_socket_close_locked`: destroy, or leave the rest to the flush. -/
lemma localSocketRetire_explains (h : Wf m) (hd : Doomed e D₀ m a s)
    (hlocal : s.ops.isLocal = true) (hp : s.peer = none)
    (htr : s.ops = .tracker → BypassesTracker e D₀ a) :
    Explains e D₀ (m.without a) m (m.d.localSocketRetire a) (Closed m.d a s) := by
  have hs := hd.live
  have hrem : s.ops ≠ .remote := by
    intro hops
    rw [hops] at hlocal
    cases hlocal
  rw [Daemon.localSocketRetire, Daemon.deref_bind hs]
  split
  case isTrue hdone =>
    refine localSocketDestroy_explains h hs hd.orphan hrem ?_ htr
    rw [Bool.or_eq_true] at hdone
    rcases hdone with hclosing | hempty
    · exact (hd.flushing hclosing).2.2
    · exact .inl (List.isEmpty_iff.mp hempty)
  case isFalse hdone =>
    rw [Bool.or_eq_true, not_or, Bool.not_eq_true, List.isEmpty_iff] at hdone
    obtain ⟨hclosing, hq⟩ := hdone
    have hfd : s.ops.isFd = true := by
      have hplain := h.peers.plain a s hs
      cases hops : s.ops <;> simp_all [SocketOps.isFd, SocketOps.isLocal]
    have hin := hd.installed hfd
    -- the code's assignments one after the other are one change
    simp only [Daemon.onLoop, Daemon.setSocket]
    cases hset : Loop.fdeventDel (.socket a) fdeRead m.d.loop with
    | error r => exact ⟨m, .refl, stopsAt_epollCtl hset⟩
    | ok L =>
      have hspec := Loop.fdeventSet_spec hset
      have hread := Loop.has_del_self (x := (m.d.loop.mem (.socket a)).state)
        (show ~~~(fdeRead &&& fdeEventMask) &&& fdeRead = 0#16 by decide)
      have hlow := (Loop.has_del_of_disjoint (x := (m.d.loop.mem (.socket a)).state)
        (show fdeEventMask &&& 0x00fc#16 = 0x00fc#16 by decide)
        (show (fdeRead &&& fdeEventMask) &&& 0x00fc#16 = 0#16 by decide)).trans
        (h.loop.low a)
      obtain ⟨i, hi⟩ := Daemon.removeSocket_eq (D := { m.d with
        sockets := update m.d.sockets a (some { s with closing := true })
        loop := L }) (a := a) (s := { s with closing := true }) (update_self ..)
      have hretire : Effect e D₀ m _ :=
        .retire m a s i _ L hs hd.orphan hfd hp hclosing hq hin hspec hlow hread
      show Explains e D₀ _ m (Daemon.removeSocket a _ >>= _) _
      rw [hi]
      refine Explained.ok ?_ ?_
      · refine ReflTransGen.single ?_
        convert hretire using 1
        simp [Moment.without, Daemon.setSocket, Daemon.emit]
      · refine ⟨⟨rfl, rfl, rfl, rfl, rfl, rfl, rfl, fun _ => rfl⟩, ?_, .inr ?_, rfl, ?_,
          fun _ => rfl⟩
        · intro b hb
          simp [Daemon.setSocket, Daemon.emit, update_of_ne hb]
        · exact ⟨_, update_self .., rfl⟩
        · exact fun k hk => hspec.mem_other k hk

/-! ## Sending -/

/-- `send_packet` to a transport that may be sent to. -/
lemma sendPacket_explains {via : Option Addr} {p : Apacket} {t : TAddr} {x : Atransport}
    (hx : m.d.transports t = some x) (hmay : m.MaySend t)
    (habout : m.About e D₀ via (stamp p) t) (hcmd : p.msg.command ≠ aWrte)
    (hsync : p.isFinalSync = true → ∃ q, m.handling = some (t, some q) ∧ q.isFinalSync = true ∧
      x.connectionState = .offline ∧ x.disconnects = []) :
    Explains e D₀ m.to m (m.d.sendPacket via p (some t)) fun D' =>
      D' = (m.d.setTransport t { x with toInput := x.toInput ++ [stamp p] }).emit
        (.sent t via (stamp p)) := by
  rw [Daemon.sendPacket, Daemon.writePacket, Daemon.derefT_bind hx]
  split
  case isTrue hts =>
    split
    case isTrue hfd =>
      split
      case isTrue hroom =>
        have hopen : m.d.pairOpen t x = true := by
          rw [Daemon.pairOpen, hts, hfd]
          rfl
        exact .ok (.single (.send m via (stamp p) t x hx hmay hopen habout hcmd hsync)) rfl
      case isFalse hroom => exact ⟨m, .refl, hmay, x, hx, by simpa using hroom⟩
    case isFalse hfd => exact ⟨m, .refl, hmay, x, hx, .inr (by simpa using hfd)⟩
  case isFalse hts =>
    have hfalse : m.d.holds x.transportSocket (.transportSocket t) = false := by
      simpa using hts
    split
    · exact ⟨m, .refl, trivial⟩
    · exact ⟨m, .refl, hmay, x, hx, .inl hfalse⟩

lemma sent_quiet {via : Option Addr} {p : Apacket} {t : TAddr} {x : Atransport} {D : Daemon}
    (hx : D.transports t = some x) :
    Quiet D ((D.setTransport t { x with toInput := x.toInput ++ [p] }).emit (.sent t via p)) := by
  refine ⟨rfl, rfl, rfl, rfl, rfl, rfl, rfl, fun u => ?_⟩
  by_cases hu : u = t
  · subst hu
    simp [Daemon.emit, Daemon.setTransport, hx, Atransport.strip]
  · simp [Daemon.emit, Daemon.setTransport, update_of_ne hu]

/-! ## The peer -/

/-- Closing a socket without a peer through `close`. -/
def LoneClose (e : Event) (D₀ : Daemon) (close : Addr → Daemon → Except Stop Daemon) : Prop :=
  ∀ m p q, Wf m → Doomed e D₀ m p q → q.peer = none →
    Explains e D₀ (m.without p) m (close p m.d) (Closed m.d p q)

/-- An orphan about to be closed, with its orphaned peer, which `close` can close. -/
structure Severed (e : Event) (D₀ : Daemon) (close : Addr → Daemon → Except Stop Daemon)
    (m : Moment) (a : Addr) (s : Asocket) : Prop where
  wf : Wf m
  doomed : Doomed e D₀ m a s
  peer : ∀ p, s.peer = some p → LoneClose e D₀ close ∧ p ≠ a ∧
    ∃ q, Doomed e D₀ m p q ∧ q.closing = false ∧ (q.ops = .remote → LocalClose e D₀) ∧
      (s.ops = .remote → p ∈ m.d.localSocketList ∧ q.ops.isLocal = true)

/-- The moment after the peer of `s` is gone. -/
def Moment.withoutPeer (m : Moment) (s : Asocket) (D : Daemon) : Moment :=
  { m with d := D, orphans := m.orphans \ {p | s.peer = some p} }

/-- The list of sockets without the peer of `s`. -/
def listWithoutPeer (s : Asocket) (l : List Addr) : List Addr :=
  match s.peer with
  | none => l
  | some p => l.erase p

/-- What closing the peer of `a` does. -/
structure PeerClosed (D : Daemon) (a : Addr) (s : Asocket) (D' : Daemon) : Prop where
  quiet : Quiet D D'
  alone : s.peer = none → D' = D
  others : ∀ b, s.peer ≠ some b → D'.sockets b = D.sockets b
  gone : ∀ p, s.peer = some p →
    D'.sockets p = none ∨ ∃ s', D'.sockets p = some s' ∧ s'.closing = true
  list : D'.localSocketList = listWithoutPeer s D.localSocketList
  mem : ∀ k, (∀ p, s.peer = some p → k ≠ .socket p) → D'.loop.mem k = D.loop.mem k
  transports : (∀ p q, s.peer = some p → D.sockets p = some q → q.ops ≠ .remote) →
    D'.transports = D.transports

variable {close : Addr → Daemon → Except Stop Daemon}

lemma closePeer_explains (h : Severed e D₀ close m a s) :
    Explains e D₀ (m.withoutPeer s) m (m.d.closePeer close a) (PeerClosed m.d a s) := by
  rw [Daemon.closePeer, Daemon.deref_bind h.doomed.live]
  cases hp : s.peer with
  | none =>
    refine .ok ?_ ⟨Quiet.refl _, fun _ => rfl, fun _ _ => rfl, ?_, ?_, fun _ _ => rfl, fun _ => rfl⟩
    · have : m.withoutPeer s m.d = m := by simp [Moment.withoutPeer, hp, Set.sdiff_empty]
      rw [this]
    · intro p hsome
      rw [hp] at hsome
      cases hsome
    · rw [listWithoutPeer, hp]
  | some p =>
    obtain ⟨hclose, hne, q, hq, hqc, hcause, -⟩ := h.peer p hp
    simp only
    rw [Daemon.deref_bind hq.live]
    have hstep : Effect e D₀ m _ := .unpeer m p q hq.live hq.orphan
    have hdoomed : Doomed e D₀ (m.to (m.d.setSocket p { q with peer := none })) p
        { q with peer := none } :=
      ⟨Daemon.setSocket_sockets_self .., hq.orphan, hq.installed,
        fun hc => absurd (hqc.symm.trans hc) (by decide), fun hrem _ => hcause hrem⟩
    have heq : m.withoutPeer s = (m.to (m.d.setSocket p { q with peer := none })).without p := by
      funext D
      have : {b | s.peer = some b} = {p} := by
        ext b
        simp [hp, eq_comm]
      simp [Moment.withoutPeer, Moment.without, Moment.to, this]
    rw [heq]
    refine .of_path (.single hstep) ((hclose _ p _ (hstep.wf h.wf) hdoomed rfl).mono ?_)
    intro D' _ hD'
    refine ⟨(setSocket_quiet p _ m.d).trans hD'.quiet, ?_, ?_, ?_, ?_, ?_, ?_⟩
    · intro hnone
      rw [hp] at hnone
      cases hnone
    · intro b hb
      have hbp : b ≠ p := fun hbp => hb (hbp ▸ hp)
      rw [hD'.others b hbp]
      simp [Daemon.setSocket, update_of_ne hbp]
    · intro p' hp'
      rw [hp, Option.some.injEq] at hp'
      exact hp' ▸ hD'.gone
    · rw [hD'.list, listWithoutPeer, hp]
      rfl
    · intro k hk
      exact hD'.mem k (hk p hp)
    · intro hops
      exact hD'.transports (hops p q hp hq.live)

/-- After the peer is gone, the socket itself is still about to be closed. -/
lemma Severed.after {D' : Daemon} (h : Severed e D₀ close m a s) (hD' : PeerClosed m.d a s D') :
    Doomed e D₀ (m.withoutPeer s D') a s := by
  have hself : s.peer ≠ some a := fun hp => (h.peer a hp).2.1 rfl
  refine ⟨?_, ⟨h.doomed.orphan, hself⟩, ?_, ?_, h.doomed.cause⟩
  · exact (hD'.others a hself).trans h.doomed.live
  · intro hfd
    rw [Loop.Installed]
    show has (D'.loop.mem _).state _ = true
    rw [hD'.mem _ fun p hp hk => hself (by cases hk; exact hp)]
    exact h.doomed.installed hfd
  · intro hc
    obtain ⟨hfd, hnone, hmay⟩ := h.doomed.flushing hc
    exact ⟨hfd, hnone, hmay⟩

/-! ## Closing an orphan and its orphaned peer -/

/-- The moment after `a` and the peer of `s` are gone. -/
def Moment.withoutBoth (m : Moment) (a : Addr) (s : Asocket) (D : Daemon) : Moment :=
  (m.withoutPeer s D).without a D

/-- What closing `a` with its peer does. -/
structure Shut (D : Daemon) (a : Addr) (s : Asocket) (D' : Daemon) : Prop where
  quiet : Quiet D D'
  others : ∀ b, b ≠ a → s.peer ≠ some b → D'.sockets b = D.sockets b
  gone : D'.sockets a = none ∨ ∃ s', D'.sockets a = some s' ∧ s'.closing = true
  peerGone : ∀ p, s.peer = some p → p ≠ a →
    D'.sockets p = none ∨ ∃ s', D'.sockets p = some s' ∧ s'.closing = true
  list : D'.localSocketList = (listWithoutPeer s D.localSocketList).erase a
  mem : ∀ k, k ≠ .socket a → (∀ p, s.peer = some p → k ≠ .socket p) →
    D'.loop.mem k = D.loop.mem k
  transports : s.ops ≠ .remote →
    (∀ p q, s.peer = some p → D.sockets p = some q → q.ops ≠ .remote) →
    D'.transports = D.transports

lemma Shut.closed {D D' : Daemon} (h : Shut D a s D') (hp : s.peer = none) : Closed D a s D' := by
  have hnone : ∀ p, s.peer ≠ some p := by
    intro p
    rw [hp]
    simp
  refine ⟨h.quiet, fun b hb => h.others b hb (hnone b), h.gone, ?_, ?_, ?_⟩
  · rw [h.list, listWithoutPeer, hp]
  · exact fun k hk => h.mem k hk fun p hsome => absurd hsome (hnone p)
  · exact fun hops => h.transports hops fun p q hsome => absurd hsome (hnone p)

/-- Something that concerns no socket happened before. -/
lemma Shut.start {D D₁ D' : Daemon} (h : Shut D₁ a s D') (hq : Quiet D D₁)
    (hs : D₁.sockets = D.sockets) (hl : D₁.localSocketList = D.localSocketList)
    (hm : D₁.loop.mem = D.loop.mem) (ht : D₁.transports = D.transports) : Shut D a s D' := by
  refine ⟨hq.trans h.quiet, ?_, h.gone, h.peerGone, hl ▸ h.list, hm ▸ h.mem, ?_⟩
  · exact hs ▸ h.others
  · rw [← ht, ← hs]
    exact h.transports

/-- A socket that is not closing afterwards was not touched. -/
lemma Shut.alive {D D' : Daemon} {b : Addr} {q : Asocket} (h : Shut D a s D')
    (hb : D'.sockets b = some q) (hq : q.closing = false) : D.sockets b = some q := by
  have hgone : ¬(D'.sockets b = none ∨ ∃ s', D'.sockets b = some s' ∧ s'.closing = true) := by
    rintro (hnone | ⟨s', hs', hc⟩)
    · rw [hnone] at hb
      cases hb
    · rw [hs', Option.some.injEq] at hb
      rw [← hb, hc] at hq
      cases hq
  by_cases hba : b = a
  · exact absurd (hba ▸ h.gone) hgone
  · by_cases hp : s.peer = some b
    · exact absurd (h.peerGone b hp hba) hgone
    · exact (h.others b hba hp).symm.trans hb

lemma Shut.mem_list {D D' : Daemon} {b : Addr} (h : Shut D a s D')
    (hb : b ∈ D'.localSocketList) : b ∈ D.localSocketList := by
  rw [h.list, listWithoutPeer] at hb
  have hb := List.mem_of_mem_erase hb
  split at hb
  · exact hb
  · exact List.mem_of_mem_erase hb

/-- Closing a socket in the list makes the list shorter. -/
lemma Shut.length_lt {D D' : Daemon} (h : Shut D a s D') (ha : a ∈ D.localSocketList)
    (hne : ∀ p, s.peer = some p → a ≠ p) :
    D'.localSocketList.length < D.localSocketList.length := by
  have hmem : a ∈ listWithoutPeer s D.localSocketList := by
    rw [listWithoutPeer]
    split
    · exact ha
    case h_2 p hp => exact (List.mem_erase_of_ne (hne p hp)).mpr ha
  have hle : (listWithoutPeer s D.localSocketList).length ≤ D.localSocketList.length := by
    rw [listWithoutPeer]
    split
    · exact le_rfl
    · exact List.length_erase_le
  have hpos := List.length_pos_of_mem hmem
  rw [h.list, List.length_erase_of_mem hmem]
  omega

/-- The peer first, then the socket, with nothing in between. -/
lemma PeerClosed.shut {D D' D'' : Daemon} {q : Asocket} (h : PeerClosed D a s D')
    (h' : Closed D' a q D'') (hops : q.ops = s.ops) : Shut D a s D'' := by
  refine ⟨h.quiet.trans h'.quiet, ?_, h'.gone, ?_, ?_, ?_, ?_⟩
  · intro b hb hp
    rw [h'.others b hb, h.others b hp]
  · intro p hp hpa
    rw [h'.others p hpa]
    exact h.gone p hp
  · rw [h'.list, h.list]
  · intro k hk hp
    rw [h'.mem k hk, h.mem k hp]
  · intro hrem hpeer
    rw [h'.transports (hops ▸ hrem), h.transports hpeer]

/-- Small changes to the socket itself do not matter to its peer. -/
lemma Severed.transfer {m' : Moment} {z : Asocket} (h : Severed e D₀ close m a s) (hwf : Wf m')
    (hz : m'.d.sockets a = some z) (hpeer : z.peer = s.peer)
    (hops : z.ops.isFd = s.ops.isFd) (hrem : z.ops = .remote → s.ops = .remote)
    (hclosing : z.closing = s.closing)
    (hpkts : z.pkts = s.pkts) (hother : ∀ b, b ≠ a → m'.d.sockets b = m.d.sockets b)
    (hlist : ∀ b, b ≠ a → b ∈ m.d.localSocketList → b ∈ m'.d.localSocketList)
    (hmem : m'.d.loop.mem = m.d.loop.mem) (horphans : m'.orphans = m.orphans) :
    Severed e D₀ close m' a z := by
  have hin : ∀ b, m.d.loop.Installed (.socket b) → m'.d.loop.Installed (.socket b) := by
    intro b hb
    rw [Loop.Installed, hmem]
    exact hb
  refine ⟨hwf, ⟨hz, horphans ▸ h.doomed.orphan, ?_, ?_, ?_⟩, ?_⟩
  · exact fun hfd => hin a (h.doomed.installed (hops ▸ hfd))
  · intro hc
    obtain ⟨hfd, hnone, hmay⟩ := h.doomed.flushing (hclosing ▸ hc)
    refine ⟨hops.trans hfd, hpeer.trans hnone, ?_⟩
    rcases hmay with hq | hfail | hcut
    · exact .inl (hpkts.trans hq)
    · exact .inr (.inl hfail)
    · exact .inr (.inr hcut)
  · exact fun hr hp => h.doomed.cause (hrem hr) (hpeer ▸ hp)
  · intro p hp
    obtain ⟨hclose, hne, q, hq, hqc, hcause, hlocal⟩ := h.peer p (hpeer ▸ hp)
    refine ⟨hclose, hne, q, ⟨?_, horphans ▸ hq.orphan, fun hfd => hin p (hq.installed hfd), ?_,
      hq.cause⟩, hqc, hcause,
      fun hr => ⟨hlist p hne (hlocal (hrem hr)).1, (hlocal (hrem hr)).2⟩⟩
    · exact (hother p hne).trans hq.live
    · intro hc
      rw [hqc] at hc
      cases hc

/-- `local_socket_close_locked`. -/
lemma localSocketCloseLocked_explains (h : Severed e D₀ close m a s)
    (hlocal : s.ops.isLocal = true) (htr : s.ops = .tracker → BypassesTracker e D₀ a) :
    Explains e D₀ (m.withoutBoth a s) m (m.d.localSocketCloseLocked close a)
      (Shut m.d a s) := by
  rw [Daemon.localSocketCloseLocked]
  refine Explained.bind (closePeer_explains h) fun D hpath hD => ?_
  have hd := h.after hD
  have hstep : Effect e D₀ (m.withoutPeer s D) _ := .unpeer _ a s hd.live hd.orphan
  rw [Daemon.deref_bind (D := D) hd.live]
  refine .of_path (.single hstep) ?_
  have hd' : Doomed e D₀ ((m.withoutPeer s D).to (D.setSocket a { s with peer := none })) a
      { s with peer := none } :=
    ⟨Daemon.setSocket_sockets_self .., hd.orphan, hd.installed,
      fun hc => ⟨(hd.flushing hc).1, rfl, (hd.flushing hc).2.2⟩, fun hrem => by
        rw [show s.ops = .remote from hrem] at hlocal
        cases hlocal⟩
  refine (localSocketRetire_explains (hstep.wf (wf_of_path hpath h.wf)) hd' hlocal rfl htr).mono
    fun D' _ hD' => hD.shut (q := { s with peer := none }) ?_ rfl
  refine ⟨(setSocket_quiet a _ D).trans hD'.quiet, ?_, hD'.gone, hD'.list, hD'.mem,
    hD'.transports⟩
  intro b hb
  rw [hD'.others b hb]
  exact update_of_ne hb ..

/-- `writex` to the client of a smart socket. -/
lemma path_writexTo (a : Addr) (bs : List UInt8) :
    ReflTransGen (Effect e D₀) m (m.to (m.d.writexTo a bs).2) := by
  rw [Daemon.writexTo]
  obtain ⟨out, ok, ws⟩ := Syscall.writeFull bs m.d.io.writes
  refine (ReflTransGen.single (.env m { m.d.io with writes := ws } m.d.nextPacket)).tail ?_
  exact .note _ (.told a out) trivial

/-- What writing to a descriptor leaves alone. -/
lemma writexTo_eq (a : Addr) (bs : List UInt8) (D : Daemon) : ∃ ws out,
    (D.writexTo a bs).2 = { D with
      io := { D.io with writes := ws }
      trace := .told a out :: D.trace } := by
  rw [Daemon.writexTo]
  obtain ⟨out, ok, ws⟩ := Syscall.writeFull bs D.io.writes
  exact ⟨ws, out, rfl⟩

/-- `sendfailmsg` only writes to the descriptor. -/
lemma sendfailmsg_explains (a : Addr) (reason : String) :
    ReflTransGen (Effect e D₀) m (m.to (m.d.sendfailmsg a reason)) ∧
      ∃ ws os, m.d.sendfailmsg a reason = { m.d with
        io := { m.d.io with writes := ws }
        trace := os ++ m.d.trace } ∧ authHistory os = [] := by
  rw [Daemon.sendfailmsg]
  simp only
  generalize str "FAIL" ++ _ ++ _ = head
  obtain ⟨ws, out, hw⟩ := writexTo_eq a head m.d
  have hpath : ReflTransGen (Effect e D₀) m _ := path_writexTo a head
  rcases hres : m.d.writexTo a head with ⟨ok, D⟩
  rw [hres] at hw hpath
  simp only at hw hpath
  subst hw
  cases ok with
  | false => exact ⟨hpath, ws, [.told a out], rfl, rfl⟩
  | true =>
    obtain ⟨ws', out', hw'⟩ := writexTo_eq a (str reason)
      { m.d with io := { m.d.io with writes := ws }, trace := .told a out :: m.d.trace }
    exact ⟨hpath.trans (path_writexTo a (str reason)), ws', [.told a out', .told a out], hw', rfl⟩

/-- `local_socket_close_notify`. -/
lemma localSocketCloseNotify_explains (h : Severed e D₀ close m a s) (hops : s.ops = .fdNotify) :
    Explains e D₀ (m.withoutBoth a s) m (m.d.localSocketCloseNotify close a)
      (Shut m.d a s) := by
  have hs := h.doomed.live
  rw [Daemon.localSocketCloseNotify, Daemon.deref_bind hs]
  have hstep : Effect e D₀ m _ := .answered m a s hs hops
  set m₁ : Moment := m.to (m.d.setSocket a { s with ops := .fd }) with hm₁
  obtain ⟨hpath, ws, os, heq, hos⟩ := sendfailmsg_explains (e := e) (m := m₁) a "closed"
  have hpath' : ReflTransGen (Effect e D₀) m _ := (ReflTransGen.single hstep).trans hpath
  have hsev : Severed e D₀ close (m₁.to (m₁.d.sendfailmsg a "closed")) a
      { s with ops := .fd } := by
    rw [heq] at hpath' ⊢
    exact h.transfer (wf_of_path hpath' h.wf) (Daemon.setSocket_sockets_self ..) rfl
      (by rw [hops]; rfl) (fun hrem => by cases hrem) rfl rfl (fun b hb => update_of_ne hb ..)
      (fun _ _ hb => hb) rfl rfl
  refine .of_path hpath' ((localSocketCloseLocked_explains hsev rfl fun htr => by cases htr).mono
    fun D' _ hD' => ?_)
  rw [heq] at hD'
  have hquiet : Quiet m.d _ := ⟨hD'.quiet.nextAddr, hD'.quiet.config, hD'.quiet.registration,
    hD'.quiet.transportList, hD'.quiet.frameworkFd, hD'.quiet.reads, ?_, hD'.quiet.transport⟩
  · refine ⟨hquiet, ?_, hD'.gone, hD'.peerGone, hD'.list, hD'.mem, ?_⟩
    · intro b hb hp
      rw [hD'.others b hb hp]
      exact update_of_ne hb ..
    · intro _ hpeer
      refine hD'.transports (by simp) fun p q hp hq => hpeer p q hp ?_
      have hpa : p ≠ a := (h.peer p hp).2.1
      exact (update_of_ne hpa ..).symm.trans hq
  · rw [hD'.quiet.history]
    show authHistory (os ++ m.d.trace) = _
    rw [authHistory, List.filter_append, ← authHistory, hos, List.nil_append, ← authHistory]

/-! ## Remote and smart sockets -/

/-- The transport of a remote socket is alive. -/
lemma Wf.remote_transport (h : Wf m) (hs : m.d.sockets a = some s) (hops : s.ops = .remote) :
    ∃ t x, s.transport = some t ∧ m.d.transports t = some x ∧ a ∈ x.disconnects := by
  obtain ⟨t, l, ht, hl, hmem⟩ := h.peers.linked a s hs hops
  obtain ⟨x, hx, rfl⟩ := Option.map_eq_some_iff.mp hl
  exact ⟨t, x, ht, hx, hmem⟩

lemma not_mem_list (h : Wf m) (hs : m.d.sockets a = some s) (hlocal : s.ops.isLocal = false) :
    a ∉ m.d.localSocketList := by
  intro hmem
  obtain ⟨q, hq, -, hql⟩ := h.peers.listed a hmem
  rw [hs, Option.some.injEq] at hq
  rw [← hq, hlocal] at hql
  cases hql

/-- Only sockets with a descriptor flush or have an `fdevent`. -/
lemma not_fd (h : Wf m) (hs : m.d.sockets a = some s) (hfd : s.ops.isFd = false) :
    a ∉ m.d.localSocketClosingList ∧ ¬m.d.loop.Installed (.socket a) := by
  constructor
  · intro hmem
    obtain ⟨q, hq, -, hqfd, -⟩ := h.peers.flushing a hmem
    rw [hs, Option.some.injEq] at hq
    rw [← hq, hfd] at hqfd
    cases hqfd
  · intro hin
    obtain ⟨q, hq, hqfd, -⟩ := h.loop.socket a hin
    rw [hs, Option.some.injEq] at hq
    rw [← hq, hfd] at hqfd
    cases hqfd

/-- The end of both ways to close a remote socket. -/
lemma dropRemote_explains {t : TAddr} {x : Atransport} (h : Wf m) (hs : m.d.sockets a = some s)
    (ha : a ∈ m.orphans) (hops : s.ops = .remote) (ht : s.transport = some t)
    (hx : m.d.transports t = some x) :
    Explains e D₀ (m.without a) m (do
      let D ← m.d.removeTransportDisconnect s.transport a
      pure (D.freeSocket a)) fun D' => Closed m.d a s D' ∧
        D'.transports = update m.d.transports t
          (some { x with disconnects := x.disconnects.erase a }) := by
  rw [ht, Daemon.removeTransportDisconnect]
  rw [Daemon.derefT_bind hx]
  refine .ok (.single (.dropRemote m a s t x hs ha hops ht hx)) ⟨⟨⟨rfl, rfl, rfl, rfl, rfl, rfl,
    rfl, fun u => ?_⟩, ?_, ?_, ?_, fun _ _ => rfl, fun hne => absurd hops hne⟩, rfl⟩
  · by_cases hu : u = t
    · subst hu
      simp [Daemon.setTransport, Daemon.freeSocket, hx, Atransport.strip]
    · simp [Daemon.setTransport, Daemon.freeSocket, update_of_ne hu]
  · intro b hb
    exact update_of_ne hb ..
  · exact .inl (update_self ..)
  · exact (List.erase_of_not_mem (not_mem_list h hs (by rw [hops]; rfl))).symm

/-- `remote_socket_disconnect`; the transport loses this record and no other. -/
lemma remoteSocketDisconnect_explains {t : TAddr} {x : Atransport}
    (h : Severed e D₀ close m a s) (hops : s.ops = .remote) (ht : s.transport = some t)
    (hx : m.d.transports t = some x)
    (hpeer : ∀ p q, s.peer = some p → m.d.sockets p = some q → q.ops ≠ .remote) :
    Explains e D₀ (m.withoutBoth a s) m (m.d.remoteSocketDisconnect close a) fun D' =>
      Shut m.d a s D' ∧ D'.transports = update m.d.transports t
        (some { x with disconnects := x.disconnects.erase a }) := by
  rw [Daemon.remoteSocketDisconnect, Daemon.deref_bind h.doomed.live]
  refine Explained.bind (closePeer_explains h) fun D hpath hD => ?_
  have hd := h.after hD
  have htr := hD.transports hpeer
  have hx' : (m.withoutPeer s D).d.transports t = some x := (congrFun htr t).trans hx
  refine (dropRemote_explains (wf_of_path hpath h.wf) hd.live hd.orphan hops ht hx').mono ?_
  rintro D' - ⟨hD', htr'⟩
  refine ⟨hD.shut hD' rfl, ?_⟩
  rw [htr']
  show update D.transports t _ = _
  rw [htr]

/-- `remote_socket_close`. -/
lemma remoteSocketClose_explains (h : Severed e D₀ close m a s) (hops : s.ops = .remote) :
    Explains e D₀ (m.withoutBoth a s) m (m.d.remoteSocketClose close a) (Shut m.d a s) := by
  rw [Daemon.remoteSocketClose, Daemon.deref_bind h.doomed.live]
  set m₁ : Moment := m.to m.d.getApacket.2 with hm₁
  have hstep : Effect e D₀ m m₁ := .env m m.d.io (m.d.nextPacket + 1)
  have hsev : Severed e D₀ close m₁ a s :=
    h.transfer (hstep.wf h.wf) h.doomed.live rfl rfl id rfl rfl (fun _ _ => rfl)
      (fun _ _ hb => hb) rfl rfl
  refine .of_path (.single hstep) ?_
  obtain ⟨t, x₁, ht, -⟩ := hsev.wf.remote_transport hsev.doomed.live hops
  -- the peer is alive while its id is read
  obtain ⟨i, hi, hid⟩ : ∃ i, (match s.peer with
      | none => pure 0
      | some b => do
        let q ← m₁.d.deref b
        pure q.id : Except Stop UInt32) = .ok i ∧
      (Known m₁.d a i s.id t ∨ LocalClose e D₀) := by
    cases hp : s.peer with
    | none => exact ⟨0, rfl, .inr (hsev.doomed.cause hops hp)⟩
    | some p =>
      obtain ⟨-, -, q, hq, -, -, hlocal⟩ := hsev.peer p hp
      exact ⟨q.id, by simp only; rw [Daemon.deref_bind hq.live]; rfl, .inl ⟨p,
        hsev.wf.names.named a s p q t hsev.doomed.live hops hp hq.live (hlocal hops).1 ht⟩⟩
  show Explains e D₀ _ m₁ ((match s.peer with
      | none => pure 0
      | some b => do
        let q ← m₁.d.deref b
        pure q.id : Except Stop UInt32) >>= _) _
  rw [hi]
  show Explains e D₀ _ m₁ (m₁.d.closePeer close a >>= _) _
  refine Explained.bind (closePeer_explains hsev) fun D hpath hD => ?_
  have hd := hsev.after hD
  have hwf := wf_of_path hpath hsev.wf
  obtain ⟨t', x, ht', hx, -⟩ := hwf.remote_transport hd.live hops
  rw [ht, Option.some.injEq] at ht'
  subst ht'
  rw [ht]
  refine Explained.bind (sendPacket_explains hx ?_ ?_ ?_ ?_) ?_
  · exact .inr (.inl ⟨a, s, hd.live, hops, ht⟩)
  · refine ⟨hd.orphan, ⟨s, hd.live, hops, ht⟩, rfl, hid.imp_left fun ⟨b, hb⟩ => ⟨b, ?_⟩⟩
    exact (trace_of_path hpath).subset hb
  · exact show aClse ≠ aWrte by decide
  · intro hfinal
    cases hfinal
  rintro D₂ hpath₂ rfl
  rw [← ht]
  refine (dropRemote_explains (wf_of_path hpath₂ hwf) hd.live hd.orphan hops ht
    (Daemon.setTransport_transports_self ..)).mono ?_
  rintro D' - ⟨hD', -⟩
  have hclosed : Closed D a s D' :=
    ⟨(sent_quiet hx).trans hD'.quiet, hD'.others, hD'.gone, hD'.list, hD'.mem,
      fun hne => absurd hops hne⟩
  exact (hD.shut hclosed rfl).start (getApacket_quiet m.d) rfl rfl rfl rfl

/-- `smart_socket_close`. -/
lemma smartSocketClose_explains (h : Severed e D₀ close m a s) (hops : s.ops = .smart) :
    Explains e D₀ (m.withoutBoth a s) m (m.d.smartSocketClose close a) (Shut m.d a s) := by
  rw [Daemon.smartSocketClose, Daemon.deref_bind h.doomed.live]
  obtain ⟨os, hos, heq⟩ := putApackets_eq (s.pkts.take 1) m.d
  set m₁ : Moment := m.to { m.d with trace := os ++ m.d.trace } with hm₁
  have hpath : ReflTransGen (Effect e D₀) m m₁ := path_notes os hos
  have hsev : Severed e D₀ close m₁ a s :=
    h.transfer (wf_of_path hpath h.wf) h.doomed.live rfl rfl id rfl rfl (fun _ _ => rfl)
      (fun _ _ hb => hb) rfl rfl
  refine .of_path hpath ?_
  simp only [heq]
  refine Explained.bind (closePeer_explains hsev) fun D hpath' hD => ?_
  have hd := hsev.after hD
  have hwf := wf_of_path hpath' hsev.wf
  obtain ⟨hnc, hin⟩ := not_fd hwf hd.live (by rw [hops]; rfl)
  have hnl := not_mem_list hwf hd.live (by rw [hops]; rfl)
  refine .ok (.single (.free _ a s hd.live hd.orphan (by rw [hops]; decide) hnl hnc hin ?_ ?_)) ?_
  · exact fun hc => (hd.flushing hc).2.2
  · intro htr
    rw [hops] at htr
    cases htr
  · have hclosed : Closed D a s (D.freeSocket a) :=
      ⟨⟨rfl, rfl, rfl, rfl, rfl, rfl, rfl, fun _ => rfl⟩, fun b hb => update_of_ne hb ..,
        .inl (update_self ..), (List.erase_of_not_mem hnl).symm, fun _ _ => rfl, fun _ => rfl⟩
    refine (hD.shut hclosed rfl).start ?_ rfl rfl rfl rfl
    exact ⟨rfl, rfl, rfl, rfl, rfl, rfl, authHistory_quiet os _ hos, fun _ => rfl⟩

/-! ## JDWP sockets -/

/-- `jdwp_socket_close`: off the list, then the peer, then the socket. -/
lemma jdwpSocketClose_explains (h : Severed e D₀ close m a s) (hops : s.ops = .jdwp) :
    Explains e D₀ (m.withoutBoth a s) m (m.d.jdwpSocketClose close a) (Shut m.d a s) := by
  rw [Daemon.jdwpSocketClose]
  refine Explained.bind (removeSocket_explains h.doomed.live h.doomed.orphan) ?_
  rintro D₁ hpath₁ ⟨i, rfl⟩
  have hsev := h.transfer (wf_of_path hpath₁ h.wf) (z := { s with id := i })
    (Daemon.setSocket_sockets_self ..) rfl rfl id rfl rfl (fun b hb => update_of_ne hb ..)
    (fun b hb hmem => (List.mem_erase_of_ne hb).mpr hmem) rfl rfl
  refine Explained.bind (closePeer_explains hsev) fun D hpath hD => ?_
  have hd := hsev.after hD
  have hwf := wf_of_path hpath hsev.wf
  obtain ⟨hnc, hin⟩ := not_fd hwf hd.live (by rw [hops]; rfl)
  have hlist : D.localSocketList = (listWithoutPeer s m.d.localSocketList).erase a := by
    rw [hD.list]
    show listWithoutPeer { s with id := i } (m.d.localSocketList.erase a) = _
    simp only [listWithoutPeer]
    split
    · rfl
    · rw [List.erase_comm]
  have hnl : a ∉ D.localSocketList := by
    rw [hlist]
    refine List.Nodup.not_mem_erase ?_
    simp only [listWithoutPeer]
    split
    · exact h.wf.peers.listNodup
    · exact h.wf.peers.listNodup.erase _
  refine .ok (.single (.free _ a _ hd.live hd.orphan (by simp [hops]) hnl hnc hin ?_ ?_)) ?_
  · exact fun hc => (hd.flushing hc).2.2
  · intro htr
    rw [hops] at htr
    cases htr
  · refine ⟨⟨hD.quiet.nextAddr, hD.quiet.config, hD.quiet.registration, hD.quiet.transportList,
      hD.quiet.frameworkFd, hD.quiet.reads, hD.quiet.history, hD.quiet.transport⟩, ?_,
      .inl (update_self ..), ?_, hlist, ?_, ?_⟩
    · intro b hb hp
      rw [Daemon.freeSocket_sockets_of_ne hb, hD.others b hp]
      exact update_of_ne hb ..
    · intro p hp hpa
      rw [Daemon.freeSocket_sockets_of_ne hpa]
      exact hD.gone p hp
    · exact fun k _ hk => hD.mem k hk
    · intro _ hpeer
      refine hD.transports fun p q hp hq => hpeer p q hp ?_
      exact (update_of_ne (hsev.peer p hp).2.1 ..).symm.trans hq

lemma mem_of_mem_neighbours {b : Addr} {l : List Addr} (h : b ∈ Daemon.neighbours a l) :
    b ∈ l := by
  rw [Daemon.neighbours, List.mem_append, Option.mem_toList, Option.mem_toList] at h
  rcases h with h | h
  · exact (List.takeWhile_sublist _).subset (List.mem_of_getLast? h)
  · have := List.mem_of_mem_drop (List.mem_of_head? h)
    exact (List.dropWhile_sublist _).subset this

/-- Touching entries of the tracker list stops the daemon at one that is freed. -/
lemma touchTrackers_explains {l : List Addr} (hl : ∀ b ∈ l, b ∈ m.d.jdwpTrackersList) :
    Explains e D₀ (fun _ => m) m (m.d.touchTrackers l) fun _ =>
      ∀ b ∈ l, ∃ q, m.d.sockets b = some q := by
  rw [Daemon.touchTrackers]
  cases hfind : l.find? fun b => (m.d.sockets b).isNone with
  | none =>
    refine .ok .refl fun b hb => ?_
    have := List.find?_eq_none.mp hfind b hb
    simpa [Option.ne_none_iff_exists'] using this
  | some b =>
    refine ⟨m, .refl, hl b (List.mem_of_find?_eq_some hfind), ?_⟩
    simpa using List.find?_some hfind

/-- `jdwp_tracker_close`: the peer, off the list, off the tracker list, then the socket. -/
lemma jdwpTrackerClose_explains (h : Severed e D₀ close m a s) (hops : s.ops = .tracker) :
    Explains e D₀ (m.withoutBoth a s) m (m.d.jdwpTrackerClose close a) (Shut m.d a s) := by
  rw [Daemon.jdwpTrackerClose]
  refine Explained.bind (closePeer_explains h) fun D hpath hD => ?_
  have hd := h.after hD
  have hwf := wf_of_path hpath h.wf
  refine Explained.bind (removeSocket_explains hd.live hd.orphan) ?_
  rintro D₁ hpath₁ ⟨i, rfl⟩
  have hwf₁ := wf_of_path hpath₁ hwf
  refine Explained.bind (touchTrackers_explains (m := (m.withoutPeer s D).to _)
    fun b hb => mem_of_mem_neighbours hb) fun _ _ _ => ?_
  have hs₁ : (D.setSocket a { s with id := i }).sockets a = some { s with id := i } :=
    Daemon.setSocket_sockets_self ..
  obtain ⟨hnc, hin⟩ := not_fd hwf₁ hs₁ (by rw [hops]; rfl)
  have hnl : a ∉ D.localSocketList.erase a := hwf.peers.listNodup.not_mem_erase
  have hclosing : s.closing = false := by
    by_contra hc
    rw [Bool.not_eq_false] at hc
    have hfd := (h.doomed.flushing hc).1
    rw [hops] at hfd
    cases hfd
  refine .ok (.single (.freeTracker _ a _ hs₁ hd.orphan hops hnl hnc hin hclosing)) ?_
  have hclosed : Closed D a s { D.setSocket a { s with id := i } with
      sockets := update (update D.sockets a (some { s with id := i })) a none
      localSocketList := D.localSocketList.erase a
      localSocketClosingList := D.localSocketClosingList.erase a
      jdwpTrackersList := D.jdwpTrackersList.erase a } := by
    refine ⟨⟨rfl, rfl, rfl, rfl, rfl, rfl, rfl, fun _ => rfl⟩, ?_, .inl (update_self ..), rfl,
      fun _ _ => rfl, fun _ => rfl⟩
    intro b hb
    show update (update D.sockets a _) a none b = _
    rw [update_of_ne hb, update_of_ne hb]
  exact hD.shut hclosed rfl

/-! ## The call through the pointer -/

/-- `s->close(s)` of an orphan whose peer, if it has one, can be closed with one call less. -/
lemma closeSocket_explains {n : ℕ} (h : Severed e D₀ (Daemon.closeSocket n) m a s) :
    Explains e D₀ (m.withoutBoth a s) m (Daemon.closeSocket (n + 1) a m.d) (Shut m.d a s) := by
  rw [Daemon.closeSocket, Daemon.deref_bind h.doomed.live]
  cases hops : s.ops with
  | fd =>
    refine localSocketCloseLocked_explains h (by rw [hops]; rfl) fun htr => ?_
    rw [hops] at htr
    cases htr
  | fdNotify => exact localSocketCloseNotify_explains h hops
  | remote => exact remoteSocketClose_explains h hops
  | smart => exact smartSocketClose_explains h hops
  | jdwp => exact jdwpSocketClose_explains h hops
  | tracker => exact jdwpTrackerClose_explains h hops

/-- Without a peer one call is enough. -/
lemma loneClose (n : ℕ) : LoneClose e D₀ (Daemon.closeSocket (n + 1)) := by
  intro m p q hwf hd hp
  have hsev : Severed e D₀ (Daemon.closeSocket n) m p q := by
    refine ⟨hwf, hd, fun b hb => ?_⟩
    rw [hp] at hb
    cases hb
  have hmoment : m.withoutBoth p q = m.without p := by
    funext D
    simp [Moment.withoutBoth, Moment.withoutPeer, Moment.without, hp, Set.sdiff_empty]
  rw [← hmoment]
  exact (closeSocket_explains hsev).mono fun D' _ hD' => hD'.closed hp

/-- Only a socket with a descriptor and without a peer flushes. -/
lemma Wf.flushing_only (h : Wf m) (hs : m.d.sockets a = some s) (ha : a ∉ m.orphans)
    (hc : s.closing = true) : s.ops.isFd = true ∧ s.peer = none := by
  obtain ⟨q, hq, -, hfd, hp⟩ := h.peers.flushing a (h.peers.inClosing a s ha hs hc)
  rw [hs, Option.some.injEq] at hq
  exact hq ▸ ⟨hfd, hp⟩

/-- A socket of another kind is not paired with a remote one. -/
lemma Wf.peer_not_remote (h : Wf m) (hs : m.d.sockets a = some s) (ha : a ∉ m.orphans)
    (hops : s.ops = .remote ∨ s.ops = .smart) (r : Addr) (q : Asocket) (hp : s.peer = some r)
    (hq : m.d.sockets r = some q) : q.ops ≠ .remote := by
  intro hrem
  obtain ⟨-, q', hq', -, hpairs⟩ := h.peers.paired a s r ha hs hp
  rw [hq, Option.some.injEq] at hq'
  rw [← hq', hrem] at hpairs
  rcases hops with hops | hops
  all_goals
    rw [hops] at hpairs
    cases hpairs

/-- A socket in good order, orphaned together with its peer. -/
lemma sever_explains {n : ℕ} (h : Wf m) (hs : m.d.sockets a = some s) (ha : a ∉ m.orphans)
    (hmay : s.closing = true → MayFree e D₀ a s)
    (hcause : ∀ r q, s.peer = some r → m.d.sockets r = some q → q.ops = .remote →
      LocalClose e D₀) :
    ∃ m₁, ReflTransGen (Effect e D₀) m m₁ ∧ m₁.d = m.d ∧
      Severed e D₀ (Daemon.closeSocket (n + 1)) m₁ a s ∧
      ∀ D, m₁.withoutBoth a s D = m.to D := by
  have hflush := h.flushing_only hs ha
  cases hp : s.peer with
  | none =>
    have hstep : Effect e D₀ m _ := .single m a s hs hp
    refine ⟨_, .single hstep, rfl, ⟨hstep.wf h, ⟨hs, Set.mem_insert .., ?_, ?_, ?_⟩, ?_⟩, ?_⟩
    · exact fun hfd => h.loop.installed a s ha hs hfd
    · exact fun hc => ⟨(hflush hc).1, hp, hmay hc⟩
    · intro hrem _
      have hfd := h.peers.unpaired a s ha hs hp
      rw [hrem] at hfd
      cases hfd
    · intro p hsome
      rw [hp] at hsome
      cases hsome
    · intro D
      simp [Moment.withoutBoth, Moment.withoutPeer, Moment.without, Moment.to, hp,
        Set.sdiff_empty, ha]
  | some p =>
    have hstep : Effect e D₀ m _ := .sever m a p s hs hp ha
    obtain ⟨hpX, q, hq, hback, hpairs⟩ := h.peers.paired a s p ha hs hp
    have hne : p ≠ a := by
      rintro rfl
      rw [hs, Option.some.injEq] at hq
      subst hq
      revert hpairs
      cases s.ops <;> decide
    have hqc : q.closing = false := by
      by_contra hc
      rw [Bool.not_eq_false] at hc
      have hnone := (h.flushing_only hq hpX hc).2
      rw [hback] at hnone
      cases hnone
    refine ⟨_, .single hstep, rfl, ⟨hstep.wf h, ⟨hs, Set.mem_insert .., ?_, ?_, ?_⟩, ?_⟩, ?_⟩
    · exact fun hfd => h.loop.installed a s ha hs hfd
    · exact fun hc => ⟨(hflush hc).1, (hflush hc).2, hmay hc⟩
    · intro _ hnone
      rw [hp] at hnone
      cases hnone
    · intro p' hp'
      rw [hp, Option.some.injEq] at hp'
      subst hp'
      refine ⟨loneClose n, hne, q, ⟨hq, .inr (Set.mem_insert ..), ?_, ?_, ?_⟩, hqc,
        fun hrem => hcause p q hp hq hrem, fun hrem => ?_⟩
      · exact fun hfd => h.loop.installed p q hpX hq hfd
      · intro hc
        rw [hqc] at hc
        cases hc
      · intro _ hnone
        rw [hback] at hnone
        cases hnone
      · have hlocal : q.ops.isLocal = true := by
          rw [hrem] at hpairs
          exact hpairs
        exact ⟨h.peers.inList p q hpX hq hlocal hqc, hlocal⟩
    · intro D
      have hset : (insert a (insert p m.orphans) \ {b | s.peer = some b}) \ {a} = m.orphans := by
        ext b
        simp only [hp, Option.some.injEq, Set.mem_sdiff, Set.mem_insert_iff, Set.mem_ofPred_eq,
          Set.mem_singleton_iff]
        constructor
        · rintro ⟨⟨rfl | rfl | hb, hbp⟩, hba⟩
          · exact absurd rfl hba
          · exact absurd rfl hbp
          · exact hb
        · intro hb
          exact ⟨⟨.inr (.inr hb), fun hpb => hpX (hpb ▸ hb)⟩, fun hba => ha (hba ▸ hb)⟩
      simp only [Moment.withoutBoth, Moment.withoutPeer, Moment.without, Moment.to, hset]

/-- `s->close(s)`. -/
theorem close_explains (h : Wf m) (hs : m.d.sockets a = some s) (ha : a ∉ m.orphans)
    (hmay : s.closing = true → MayFree e D₀ a s)
    (hcause : ∀ r q, s.peer = some r → m.d.sockets r = some q → q.ops = .remote →
      LocalClose e D₀) :
    Explains e D₀ m.to m (m.d.close a) (Shut m.d a s) := by
  obtain ⟨m₁, hpath, hd, hsev, hto⟩ := sever_explains (n := 0) h hs ha hmay hcause
  have hclose := closeSocket_explains hsev
  rw [funext hto, hd] at hclose
  exact .of_path hpath hclose

/-! ## Closing by transport -/

/-- A socket in the list that is bound to a transport was so before the step. -/
lemma boundTo_before {t : TAddr} (h : Wf m) (hX : m.orphans = ∅)
    (hold : ∀ b q, m.d.sockets b = some q → q.closing = false → D₀.sockets b = some q)
    (ha : a ∈ m.d.localSocketList) (hs : m.d.sockets a = some s)
    (hbound : m.d.boundTo t a = true) : D₀.boundTo t a = true ∧ D₀.sockets a = some s ∧
      ∀ p q, s.peer = some p → m.d.sockets p = some q → D₀.sockets p = some q := by
  obtain ⟨s', hs', hclosing, -⟩ := h.peers.listed a ha
  rw [hs, Option.some.injEq] at hs'
  subst hs'
  have hs₀ := hold a s hs hclosing
  have haX : a ∉ m.orphans := by rw [hX]; simp
  have hpeer : ∀ p q, s.peer = some p → m.d.sockets p = some q → D₀.sockets p = some q := by
    intro p q hp hq
    obtain ⟨hpX, q', hq', hback, -⟩ := h.peers.paired a s p haX hs hp
    rw [hq, Option.some.injEq] at hq'
    subst hq'
    refine hold p q hq ?_
    by_contra hc
    rw [Bool.not_eq_false] at hc
    have hnone := (h.flushing_only hq hpX hc).2
    rw [hback] at hnone
    cases hnone
  refine ⟨?_, hs₀, hpeer⟩
  rw [Daemon.boundTo, hs, Option.any_some, Bool.or_eq_true] at hbound
  rw [Daemon.boundTo, hs₀, Option.any_some, Bool.or_eq_true]
  rcases hbound with hbound | hbound
  · exact .inl hbound
  · right
    cases hp : s.peer with
    | none =>
      rw [hp] at hbound
      cases hbound
    | some p =>
      rw [hp, Option.any_some] at hbound
      obtain ⟨-, q, hq, -⟩ := h.peers.paired a s p haX hs hp
      rw [Option.any_some, hpeer p q hp hq]
      rw [hq] at hbound
      exact hbound

/-- `close_all_sockets`: every close shortens the list, so the walk ends. -/
lemma closeAllFuel_explains {t : TAddr} {x : Atransport} (hact : e.action = .input t)
    (hx : D₀.transports t = some x) (hpc : x.input = .closeAll) (fuel : ℕ) {m : Moment}
    (h : Wf m) (hX : m.orphans = ∅) (hfuel : m.d.localSocketList.length < fuel)
    (hold : ∀ b q, m.d.sockets b = some q → q.closing = false → D₀.sockets b = some q)
    (hlist : ∀ b ∈ m.d.localSocketList, b ∈ D₀.localSocketList) :
    Explains e D₀ m.to m (m.d.closeAllFuel t fuel) (Quiet m.d) := by
  induction fuel generalizing m with
  | zero => omega
  | succ fuel ih =>
    rw [Daemon.closeAllFuel]
    cases hfind : m.d.localSocketList.find? fun a => m.d.boundTo t a with
    | none => exact .ok .refl (Quiet.refl _)
    | some a =>
      have ha := List.mem_of_find?_eq_some hfind
      have hbound := List.find?_some hfind
      obtain ⟨s, hs, hclosing, hlocal⟩ := h.peers.listed a ha
      have haX : a ∉ m.orphans := by rw [hX]; simp
      obtain ⟨hbound₀, hs₀, hpeer₀⟩ := boundTo_before h hX hold ha hs hbound
      have hcause : ∀ r q, s.peer = some r → m.d.sockets r = some q → q.ops = .remote →
          LocalClose e D₀ := fun r q hp hq hrem => ⟨a, s, r, q, hs₀, hp, hpeer₀ r q hp hq, hrem,
        .all t x hact hx hpc (hlist a ha) hbound₀⟩
      obtain ⟨m₁, hpath, hd, hsev, hto⟩ := sever_explains (n := 0) h hs haX
        (fun hc => absurd (hclosing.symm.trans hc) (by decide)) hcause
      have hclose := localSocketCloseLocked_explains hsev hlocal fun hops =>
        ⟨t, x, hact, hx, hpc, hlist a ha, hbound₀, by rw [hs₀, Option.any_some, hops]; rfl⟩
      rw [funext hto, hd] at hclose
      refine .of_path hpath ?_
      refine Explained.bind hclose fun D' hpath' hD' => ?_
      have hlen := hD'.length_lt ha fun p hp => (hsev.peer p hp).2.1.symm
      refine (ih (m := m.to D') (wf_of_path (hpath.trans hpath') h) hX ?_ ?_ ?_).mono
        fun D'' _ hD'' => hD'.quiet.trans hD''
      · exact Nat.lt_of_lt_of_le hlen (by omega)
      · exact fun b q hb hq => hold b q (hD'.alive hb hq) hq
      · exact fun b hb => hlist b (hD'.mem_list hb)

/-- What running the disconnect functions of `t` does. -/
structure Disconnected (t : TAddr) (x : Atransport) (D D' : Daemon) : Prop where
  quiet : Quiet D D'
  transports : D'.transports = update D.transports t (some { x with disconnects := [] })
  mem : ∀ k, (∀ a, k ≠ .socket a) → D'.loop.mem k = D.loop.mem k

/-- `run_transport_disconnects` goes through the whole list: each function unlinks its own
record and no other. -/
lemma runDisconnects_explains {t : TAddr} (l : List Addr) {m : Moment} {x : Atransport} (h : Wf m)
    (hX : m.orphans = ∅) (hx : m.d.transports t = some x) (hl : x.disconnects = l) :
    Explains e D₀ m.to m (Daemon.runDisconnects t l.length l.head? m.d)
      (Disconnected t x m.d) := by
  induction l generalizing m x with
  | nil =>
    refine .ok .refl ⟨Quiet.refl _, ?_, fun _ _ => rfl⟩
    rw [← hl, ← hx, update_eq_self]
  | cons r rest ih =>
    rw [List.head?_cons, List.length_cons, Daemon.runDisconnects, Daemon.derefT_bind hx]
    obtain ⟨hnodup, hrec⟩ := h.peers.records t _ (disconnectsOf_eq hx)
    obtain ⟨s, hs, hops, ht⟩ := hrec r (by rw [hl]; simp)
    have hrX : r ∉ m.orphans := by rw [hX]; simp
    have hclosing : s.closing = true → MayFree e D₀ r s := by
      intro hc
      have hfd := (h.flushing_only hs hrX hc).1
      rw [hops] at hfd
      cases hfd
    obtain ⟨m₁, hpath, hd, hsev, hto⟩ := sever_explains (e := e) (n := 0) h hs hrX hclosing
      fun p q hp hq hrem => absurd hrem (h.peer_not_remote hs hrX (.inl hops) p q hp hq)
    have hpeer : ∀ p q, s.peer = some p → m.d.sockets p = some q → q.ops ≠ .remote := by
      intro p q hp hq hqops
      obtain ⟨-, q', hq', -, hpairs⟩ := h.peers.paired r s p hrX hs hp
      rw [hq, Option.some.injEq] at hq'
      rw [← hq', hops, hqops] at hpairs
      cases hpairs
    have hstep := remoteSocketDisconnect_explains hsev hops ht (by rw [hd]; exact hx)
      (by rw [hd]; exact hpeer)
    rw [funext hto, hd] at hstep
    refine .of_path hpath ?_
    simp only
    refine Explained.bind hstep ?_
    rintro D' hpath' ⟨hD', htr⟩
    have hnext : Daemon.nextDisconnect r x.disconnects = rest.head? := by
      rw [hl, Daemon.nextDisconnect]
      simp
    have hx' : D'.transports t = some { x with disconnects := rest } := by
      rw [htr, update_self, hl, List.erase_cons_head]
    rw [hnext]
    refine (ih (m := m.to D') (wf_of_path (hpath.trans hpath') h) hX hx' rfl).mono ?_
    intro D'' _ hD''
    refine ⟨hD'.quiet.trans hD''.quiet, ?_, ?_⟩
    · rw [hD''.transports]
      show update D'.transports t _ = _
      rw [htr, update_idem]
    · intro k hk
      rw [hD''.mem k hk]
      exact hD'.mem k (hk r) fun p _ => hk p

lemma runTransportDisconnects_explains {t : TAddr} {x : Atransport} (h : Wf m)
    (hX : m.orphans = ∅) (hx : m.d.transports t = some x) :
    Explains e D₀ m.to m (m.d.runTransportDisconnects t) (Disconnected t x m.d) := by
  rw [Daemon.runTransportDisconnects, Daemon.derefT_bind hx]
  exact runDisconnects_explains _ h hX hx rfl

end Operations

end Adbd
