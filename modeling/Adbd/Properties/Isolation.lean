import Adbd.Confinement.Step
import Adbd.Properties.DescriptorOwners

/-!
# What reaches a socket

A step of the daemon is about few sockets: the one whose event function is called, the one a
packet names, the streams of a session that ends.  Whatever the step does it does to these, to
their peers and to what it makes.  All other sockets keep their fields, their queues and what
they wait for, and the history of the step does not mention them.

So the streams of one transport are safe from what another one sends, with two exceptions.  Local
ids are the daemon's, not the transport's, and a packet that names the id of a stream reaches it
from everywhere.  And a transport that is removed closes a number it has closed before: if that has
been handed out again, a stream of another host may lose its descriptor, without a trace of it in
the daemon's own memory.
-/

namespace Adbd.Isolation

open Function FlagWord Transition Footprint Daemon
open DescriptorOwners (NoStray Owned noStray)

/-! ## What a step is about -/

/-- The step is about the socket `a`. -/
inductive Involves (e : Event) (D : Daemon) (a : Addr) : Prop
  /-- Its event function is called. -/
  | called (ev : BitVec 16) (rs : List Syscall.ReadResult)
      (h : D.delivered e = some (.socket a, ev, rs))
  /-- A packet names it. -/
  | named (t : TAddr) (p : Apacket) (h : Reaches e D t p a)
      (hcmd : p.msg.command ∈ [aOkay, aClse, aWrte])
  /-- The session it is a stream of ends. -/
  | ended (t : TAddr) (p : Apacket) (x : Atransport) (h : Handles e D t p)
      (hx : D.transports t = some x) (hends : EndsSession p x) (ha : a ∈ x.disconnects)
  /-- The transport it is a stream of is removed. -/
  | removed (t : TAddr) (x : Atransport) (h : Removes e D t) (hx : D.transports t = some x)
      (ha : a ∈ x.disconnects)
  /-- A thread closes everything that belongs to its transport. -/
  | closed (t : TAddr) (x : Atransport) (hact : e.action = .input t)
      (hx : D.transports t = some x) (hpc : x.input = .closeAll)
      (hbound : D.boundTo t a = true)

/-- The sockets a step can change: those it is about, their peers, and new ones. -/
def footprint (e : Event) (D : Daemon) : Set Addr :=
  {a | Involves e D a ∨ (∃ s p, D.sockets a = some s ∧ s.peer = some p ∧ Involves e D p) ∨
    D.nextAddr ≤ a}

section Step

variable {e : Event} {D D' : Daemon} {a b p : Addr} {s : Asocket}

/-- Links are mutual, so none leads out of the footprint or into it. -/
lemma contained_footprint (h : Wf { d := D }) : Contained (footprint e D) D := by
  have hintact := PeerLinks.intact_of_wf h
  refine ⟨sealed_of_symmetric hintact.symmetric fun i hi s j hs hj => ?_,
    fun b hb => .inr (.inr hb)⟩
  rcases hi with hinvolved | ⟨s', p, hs', hp, hinvolved⟩ | hnew
  · obtain ⟨q, hq, hback⟩ := hintact.symmetric i s j hs hj
    exact .inr (.inl ⟨q, i, hq, hback, hinvolved⟩)
  · cases hs.symm.trans hs'
    cases hj.symm.trans hp
    exact .inl hinvolved
  · exact absurd (h.peers.fresh i s hs) (Nat.not_lt.mpr hnew)

lemma covers_footprint : Covers (footprint e D) e D := by
  constructor
  · intro k ev rs hdelivered
    constructor
    · rintro a rfl
      exact .inl (.called ev rs hdelivered)
    · rintro t x p rest rfl hev hx hqueue
      have hands : Handles e D t p := ⟨ev, rs, x, rest, hdelivered, hev, hx, hqueue⟩
      refine ⟨fun y a hy hon hcmd hfind => .inl (.named t p ⟨hands, ?_, hfind⟩ hcmd),
        fun y hy hends r hr => .inl (.ended t p y hands hy hends hr)⟩
      rw [hy, Option.any_some, hon]
    · rintro t rest rfl hev hreg x hx r hr
      exact .inl (.removed t x ⟨ev, rs, rest, hdelivered, hev, hreg⟩ hx hr)
  · exact fun t x hact hx hpc b hbound => .inl (.closed t x hact hx hpc hbound)

/-- Nothing happens to a socket that neither the step is about nor its peer. -/
lemma untouched_step (h : Wf { d := D }) (hs : D.sockets b = some s) (hno : ¬Involves e D b)
    (hpeer : ∀ p, s.peer = some p → ¬Involves e D p) (hstep : D.step e = .ok D') :
    Untouched b D D' := by
  have hwithin : Within (footprint e D) D D' :=
    (step_stays (contained_footprint h) h.noProcess covers_footprint).success hstep
  refine hwithin.untouched b ?_
  rintro (hinvolved | ⟨s', p, hs', hp, hinvolved⟩ | hnew)
  · exact hno hinvolved
  · cases hs.symm.trans hs'
    exact hpeer p hp hinvolved
  · exact absurd (h.peers.fresh b s hs) (Nat.not_lt.mpr hnew)

end Step

/-! ## Runs -/

lemma wf_next (e : Event) (D D' : Daemon) (hwf : Wf { d := D }) (hstep : D.step e = .ok D') :
    Wf { d := D' } :=
  wf_of_step hwf hstep

section Runs

variable {D₀ D : Daemon} {b : Addr} {s : Asocket} {es : List Event}

/-- If anything has happened to a socket, some step of the run was about it or about its peer, and
up to this step nothing had. -/
theorem involved_of_touched (h : Reachable D₀) (hs : D₀.sockets b = some s)
    (hrun : run Daemon.step es D₀ = .ok D) (htouched : ¬Untouched b D₀ D) :
    ∃ es₁ e es₂ D₁, es = es₁ ++ e :: es₂ ∧ run Daemon.step es₁ D₀ = .ok D₁ ∧
      Untouched b D₀ D₁ ∧ (Involves e D₁ b ∨ ∃ p, s.peer = some p ∧ Involves e D₁ p) := by
  have hstep : ∀ e D D', Wf { d := D } → D.step e = .ok D' → ¬Untouched b D₀ D' →
      ¬Untouched b D₀ D ∨ Untouched b D₀ D ∧
        (Involves e D b ∨ ∃ p, s.peer = some p ∧ Involves e D p) := by
    intro e D D' hwf hstep htouched
    by_cases hsame : Untouched b D₀ D
    case neg => exact .inl hsame
    refine .inr ⟨hsame, ?_⟩
    by_contra hno
    rw [not_or, not_exists] at hno
    exact htouched (hsame.trans (untouched_step hwf (hsame.socket.trans hs) hno.1
      (fun p hp hinvolved => hno.2 p ⟨hp, hinvolved⟩) hstep))
  obtain ⟨es₁, e, es₂, D₁, hes, hrun₁, -, hsame, hinvolved⟩ :=
    exists_origin wf_next hstep h.wf (not_not_intro (.refl b D₀)) hrun htouched
  exact ⟨es₁, e, es₂, D₁, hes, hrun₁, hsame, hinvolved⟩

/-- A second host connects and closes the shell of the first one, whose local id is 1. -/
def intrude : List Event :=
  PeerLinks.connect 1 14 15 16 ++
    PeerLinks.carry 1 15 (PeerLinks.packetOf aCnxn aVersion 4096 (str "host::" ++ [0])) {} ++
    PeerLinks.carry 1 15 (PeerLinks.packetOf aClse 9 1 []) {}

/-- The two ends of the shell and its peer, and whether they are gone after that. -/
def closedShell (D : Daemon) : Option (SocketOps × Option TAddr × Option Addr) × Option Bool :=
  ((D.sockets 1).map fun q => (q.ops, q.transport, q.peer),
    (walk Daemon.step noStray intrude D).map fun D' => (D'.sockets 1).isNone)

lemma along_noStray {es : List Event} {D D' : Daemon}
    (h : walk Daemon.step noStray es D = some D') :
    run Daemon.step es D = .ok D' ∧ Along Daemon.step NoStray es D := by
  obtain ⟨hrun, htested⟩ := of_walk h
  exact ⟨hrun, htested.mono fun _ _ => DescriptorOwners.noStray_of_test⟩

lemma exists_intruded : ∃ D₀ D q, ReachableBy NoStray D₀ ∧ D₀.sockets 1 = some q ∧
    q.ops = .remote ∧ q.transport = some 0 ∧ q.peer = some 0 ∧
    Along Daemon.step NoStray intrude D₀ ∧ run Daemon.step intrude D₀ = .ok D ∧
    ¬Untouched 1 D₀ D := by
  obtain ⟨D₀, hD₀, hshows⟩ := @exists_reachableBy NoStray
    (Option (SocketOps × Option TAddr × Option Addr) × Option Bool) PeerLinks.unlocked
    [3, 4, 6, 7, 8, 9] (fun _ => false) PeerLinks.openShell noStray closedShell
    (some (.remote, some 0, some 0), some true)
    (fun _ _ _ h => DescriptorOwners.noStray_of_test h) (by decide +kernel)
  obtain ⟨hends, hclosed⟩ := Prod.mk.inj hshows
  obtain ⟨q, hq, hfields⟩ := Option.map_eq_some_iff.mp hends
  simp only [Prod.mk.injEq] at hfields
  obtain ⟨hrem, ht, hpeer⟩ := hfields
  obtain ⟨D, hwalk, hnone⟩ := Option.map_eq_some_iff.mp hclosed
  obtain ⟨hrun, hlong⟩ := along_noStray hwalk
  refine ⟨D₀, D, q, hD₀, hq, hrem, ht, hpeer, hlong, hrun, fun hsame => ?_⟩
  rw [hsame.socket, hq] at hnone
  cases hnone

/-- The theorem for the remote end of the shell: a step of that run was about it, or about the
local one. -/
theorem involved_of_touched_shell : ∃ D₀ D, Reachable D₀ ∧ run Daemon.step intrude D₀ = .ok D ∧
    ∃ es₁ e es₂ D₁, intrude = es₁ ++ e :: es₂ ∧ run Daemon.step es₁ D₀ = .ok D₁ ∧
      Untouched 1 D₀ D₁ ∧ (Involves e D₁ 1 ∨ Involves e D₁ 0) := by
  obtain ⟨D₀, D, q, hD₀, hq, -, -, hpeer, -, hrun, htouched⟩ := exists_intruded
  obtain ⟨es₁, e, es₂, D₁, hes, hrun₁, hsame, hinvolved⟩ :=
    involved_of_touched hD₀.reachable hq hrun htouched
  refine ⟨D₀, D, hD₀.reachable, hrun, es₁, e, es₂, D₁, hes, hrun₁, hsame, hinvolved.imp_right ?_⟩
  rintro ⟨p, hp, hlocal⟩
  rwa [Option.some.inj (hpeer.symm.trans hp)]

end Runs

/-! ## Streams -/

/-- The step can reach the stream of transport `t` whose local socket is `a`. -/
inductive Disturbs (e : Event) (D : Daemon) (t : TAddr) (a : Addr) : Prop
  /-- The event function of the local socket is called. -/
  | called (ev : BitVec 16) (rs : List Syscall.ReadResult)
      (h : D.delivered e = some (.socket a, ev, rs))
  /-- A packet names the local socket; it can be another transport's. -/
  | named (u : TAddr) (p : Apacket) (h : Reaches e D u p a)
      (hcmd : p.msg.command ∈ [aOkay, aClse, aWrte])
  /-- The session of `t` ends. -/
  | ended (p : Apacket) (x : Atransport) (h : Handles e D t p) (hx : D.transports t = some x)
      (hends : EndsSession p x)
  | removed (h : Removes e D t)
  /-- A thread closes the local sockets that belong to its transport. -/
  | closed (u : TAddr) (x : Atransport) (hact : e.action = .input u)
      (hx : D.transports u = some x) (hpc : x.input = .closeAll)
      (hbound : D.boundTo u a = true)

/-- The remote socket `r` and the local one `a` are a stream of `t`. -/
structure Stream (t : TAddr) (r a : Addr) (D : Daemon) : Prop where
  remote : ∃ q, D.sockets r = some q ∧ q.ops = .remote ∧ q.transport = some t ∧ q.peer = some a
  local_ : ∃ s, D.sockets a = some s ∧ s.ops.isLocal = true ∧ s.peer = some r

/-- The descriptor of the socket is open, and open for it. -/
def KeepsFd (a : Addr) (D : Daemon) : Prop :=
  ∀ s, D.sockets a = some s → s.ops.isFd = true → D.holds s.fd (.socket a) = true

/-- Nothing has happened to the two ends of a stream, and its descriptor is still its own. -/
structure Undisturbed (r a : Addr) (D D' : Daemon) : Prop where
  remote : Untouched r D D'
  local_ : Untouched a D D'
  descriptor : KeepsFd a D'

section Streams

variable {e : Event} {D₀ D D' : Daemon} {t u : TAddr} {a r : Addr} {x : Atransport}
  {ev : BitVec 16} {rs : List Syscall.ReadResult} {es : List Event}

/-- The other end of a remote socket is local. -/
lemma stream_of_remote {q : Asocket} (h : Wf { d := D }) (hq : D.sockets r = some q)
    (hrem : q.ops = .remote) (ht : q.transport = some t) (ha : q.peer = some a) :
    Stream t r a D := by
  obtain ⟨-, s, hs, hback, hpairs⟩ := h.peers.paired r q a (Set.notMem_empty _) hq ha
  refine ⟨⟨q, hq, hrem, ht, ha⟩, s, hs, ?_, hback⟩
  rwa [hrem] at hpairs

lemma Stream.same (h : Stream t r a D) (hr : D'.sockets r = D.sockets r)
    (ha : D'.sockets a = D.sockets a) : Stream t r a D' :=
  ⟨hr ▸ h.remote, ha ▸ h.local_⟩

/-- The event function that is called belongs to a socket with a descriptor. -/
lemma isFd_of_delivered (h : Wf { d := D }) (hd : D.delivered e = some (.socket a, ev, rs)) :
    ∃ s, D.sockets a = some s ∧ s.ops.isFd = true := by
  have hin : D.loop.Installed (.socket a) := by
    rw [delivered] at hd
    split at hd
    case h_2 => cases hd
    case h_1 k rest hact hlist =>
      split at hd
      case isFalse => cases hd
      case isTrue =>
        split at hd
        case isFalse =>
          cases hd
          have hmem : FdeId.socket a ∈ D.loop.listPending := hlist ▸ List.mem_cons_self
          exact (h.loop.pending _ hmem (h.loop.covers a)).1
        case isTrue =>
          obtain ⟨⟨n, hslot⟩, -⟩ := DrainPeers.forced_eq_some hd
          exact (h.loop.slot n _ hslot (h.loop.covers a)).1
  obtain ⟨s, hs, hfd, -⟩ := h.loop.socket a hin
  exact ⟨s, hs, hfd⟩

lemma Stream.not_remote (h : Stream t r a D) {q : Asocket} (hq : D.sockets a = some q) :
    q.ops ≠ .remote := by
  obtain ⟨s, hs, hlocal, -⟩ := h.local_
  cases hs.symm.trans hq
  intro hrem
  rw [hrem] at hlocal
  cases hlocal

/-- What is linked with a transport is a stream of it. -/
lemma linked_remote (h : Wf { d := D }) (hx : D.transports u = some x) (hr : r ∈ x.disconnects) :
    ∃ q, D.sockets r = some q ∧ q.ops = .remote ∧ q.transport = some u :=
  (h.peers.records u _ (disconnectsOf_eq hx)).2 r hr

lemma Stream.linked (h : Stream t r a D) (hwf : Wf { d := D }) (hx : D.transports u = some x)
    (hr : r ∈ x.disconnects) : u = t := by
  obtain ⟨q, hq, -, ht, -⟩ := h.remote
  obtain ⟨q', hq', -, hu⟩ := linked_remote hwf hx hr
  cases hq.symm.trans hq'
  rw [ht, Option.some.injEq] at hu
  exact hu.symm

lemma Stream.unlinked (h : Stream t r a D) (hwf : Wf { d := D }) (hx : D.transports u = some x) :
    a ∉ x.disconnects := by
  intro ha
  obtain ⟨q, hq, hrem, -⟩ := linked_remote hwf hx ha
  exact h.not_remote hq hrem

/-- A step that is about the local socket reaches the stream. -/
lemma Stream.disturbs_local (h : Stream t r a D) (hwf : Wf { d := D })
    (hinvolved : Involves e D a) : Disturbs e D t a := by
  cases hinvolved with
  | called ev rs hd => exact .called ev rs hd
  | named u p hreach hcmd => exact .named u p hreach hcmd
  | ended u p x hands hx hends ha => exact absurd ha (h.unlinked hwf hx)
  | removed u x hrem hx ha => exact absurd ha (h.unlinked hwf hx)
  | closed u x hact hx hpc hbound => exact .closed u x hact hx hpc hbound

/-- One that is about the remote socket is about the transport. -/
lemma Stream.disturbs_remote (h : Stream t r a D) (hwf : Wf { d := D })
    (hinvolved : Involves e D r) : Disturbs e D t a := by
  obtain ⟨q, hq, hrem, ht, hpeer⟩ := h.remote
  cases hinvolved with
  | called ev rs hd =>
    obtain ⟨s, hs, hfd⟩ := isFd_of_delivered hwf hd
    cases hq.symm.trans hs
    rw [hrem] at hfd
    cases hfd
  | named u p hreach hcmd =>
    obtain ⟨s, hs, -, hlocal⟩ := hwf.peers.listed r (List.mem_of_find?_eq_some hreach.2.2)
    cases hq.symm.trans hs
    rw [hrem] at hlocal
    cases hlocal
  | ended u p x hands hx hends hr =>
    cases h.linked hwf hx hr
    exact .ended p x hands hx hends
  | removed u x hremoves hx hr =>
    cases h.linked hwf hx hr
    exact .removed hremoves
  | closed u x hact hx hpc hbound =>
    refine .closed u x hact hx hpc ?_
    obtain ⟨s, hs, -, hback⟩ := h.local_
    rw [boundTo, hq, Option.any_some, hpeer, Option.any_some, hs, Option.any_some] at hbound
    rw [boundTo, hs, Option.any_some, hback, Option.any_some, hq, Option.any_some]
    rwa [Bool.or_comm]

/-- A step that does not reach the stream leaves both ends alone. -/
lemma Stream.untouched (h : Stream t r a D) (hwf : Wf { d := D }) (hno : ¬Disturbs e D t a)
    (hstep : D.step e = .ok D') : Untouched r D D' ∧ Untouched a D D' := by
  have hr : ¬Involves e D r := fun hinvolved => hno (h.disturbs_remote hwf hinvolved)
  have ha : ¬Involves e D a := fun hinvolved => hno (h.disturbs_local hwf hinvolved)
  obtain ⟨q, hq, -, -, hpeer⟩ := h.remote
  obtain ⟨s, hs, -, hback⟩ := h.local_
  constructor
  · refine untouched_step hwf hq hr (fun p hp => ?_) hstep
    rwa [← Option.some.inj (hpeer.symm.trans hp)]
  · refine untouched_step hwf hs ha (fun p hp => ?_) hstep
    rwa [← Option.some.inj (hback.symm.trans hp)]

/-- Every socket with a descriptor has an `fdevent` for it, so its number is its own. -/
lemma keepsFd_of_owned (hwf : Wf { d := D }) (h : Owned D) (a : Addr) : KeepsFd a D := by
  intro s hs hfd
  have hin := hwf.loop.installed a s (Set.notMem_empty _) hs hfd
  obtain ⟨s', hs', -, hn⟩ := hwf.loop.socket a hin
  cases hs.symm.trans hs'
  exact DescriptorOwners.holds_iff.mpr (h s.fd (.socket a) (.fde (.socket a) s.fd _ rfl ⟨hin, hn⟩))

/-- Where no removal of a transport hits a number that has been handed out again, the descriptors
of the sockets are their own all along. -/
lemma keepsFd_of_run (h : ReachableBy NoStray D₀) (hlong : Along Daemon.step NoStray es D₀)
    (hrun : run Daemon.step es D₀ = .ok D) (a : Addr) : KeepsFd a D := by
  have hstart := DescriptorOwners.inOrder_of_reachableBy h
  obtain ⟨hwf, hinOrder⟩ := DescriptorOwners.inOrder_kept.run h.reachable.wf hstart hlong hrun
  exact keepsFd_of_owned hwf hinOrder.owned a

/-- Where no removal of a transport hits a number that has been handed out again, a stream is left
alone, at both ends and with its descriptor, until that descriptor is ready, a packet of whichever
transport names its local id, its own transport's session ends, or a thread closes everything. -/
theorem disturbed_of_touched {q : Asocket} (h : ReachableBy NoStray D₀)
    (hq : D₀.sockets r = some q) (hrem : q.ops = .remote) (ht : q.transport = some t)
    (ha : q.peer = some a) (hlong : Along Daemon.step NoStray es D₀)
    (hrun : run Daemon.step es D₀ = .ok D) (htouched : ¬Undisturbed r a D₀ D) :
    ∃ es₁ e es₂ D₁, es = es₁ ++ e :: es₂ ∧ run Daemon.step es₁ D₀ = .ok D₁ ∧
      Undisturbed r a D₀ D₁ ∧ Disturbs e D₁ t a := by
  have hwf := h.reachable.wf
  have hstream₀ := stream_of_remote hwf hq hrem ht ha
  have hends : ¬(Untouched r D₀ D ∧ Untouched a D₀ D) :=
    fun hsame => htouched ⟨hsame.1, hsame.2, keepsFd_of_run h hlong hrun a⟩
  have hstep : ∀ e D D', Wf { d := D } → D.step e = .ok D' →
      ¬(Untouched r D₀ D' ∧ Untouched a D₀ D') → ¬(Untouched r D₀ D ∧ Untouched a D₀ D) ∨
        (Untouched r D₀ D ∧ Untouched a D₀ D) ∧ Disturbs e D t a := by
    intro e D D' hwf hstep htouched
    by_cases hsame : Untouched r D₀ D ∧ Untouched a D₀ D
    case neg => exact .inl hsame
    refine .inr ⟨hsame, ?_⟩
    by_contra hno
    have hstream := hstream₀.same hsame.1.socket hsame.2.socket
    obtain ⟨hr, ha⟩ := hstream.untouched hwf hno hstep
    exact htouched ⟨hsame.1.trans hr, hsame.2.trans ha⟩
  obtain ⟨es₁, e, es₂, D₁, rfl, hrun₁, -, hsame, hdisturbs⟩ :=
    exists_origin wf_next hstep hwf (not_not_intro ⟨.refl r D₀, .refl a D₀⟩) hrun hends
  exact ⟨es₁, e, es₂, D₁, rfl, hrun₁,
    ⟨hsame.1, hsame.2, keepsFd_of_run h hlong.append_left hrun₁ a⟩, hdisturbs⟩

/-- The theorem on the run in which a second host closes the stream. -/
theorem disturbed_of_touched_shell : ∃ D₀ D, ReachableBy NoStray D₀ ∧
    run Daemon.step intrude D₀ = .ok D ∧
    ∃ es₁ e es₂ D₁, intrude = es₁ ++ e :: es₂ ∧ run Daemon.step es₁ D₀ = .ok D₁ ∧
      Undisturbed 1 0 D₀ D₁ ∧ Disturbs e D₁ 0 0 := by
  obtain ⟨D₀, D, q, hD₀, hq, hrem, ht, hpeer, hlong, hrun, htouched⟩ := exists_intruded
  exact ⟨D₀, D, hD₀, hrun, disturbed_of_touched hD₀ hq hrem ht hpeer hlong hrun
    fun hsame => htouched hsame.remote⟩

end Streams

end Adbd.Isolation
