import Adbd.Effects.Closing
import Adbd.Effects.Kinds
import Adbd.Model.SocketLock
import Adbd.Properties.PeerLinks

/-!
# `socket_list_lock` is never taken twice

Whoever closes a socket clears the back pointer of its peer before it calls the peer's `close`, so
that call closes one socket and no other.  Under the mutex it is made by
`local_socket_close_locked` only, and the peer it is made for is a remote or a smart socket, whose
`close` does not take the mutex: the kinds of peers decide it.  So the functions of
`Adbd.Model.SocketLock` do what those of `Adbd.Model.Close` do, wherever a step may call them, and
leave the mutex free.
-/

namespace Adbd.SocketLock

open Function Transition Relation Mutex

variable {D : Daemon} {a p r : Addr} {s q : Asocket} {t : TAddr} {held : Bool} {n fuel : ℕ}

/-! ## Closing makes no sockets and no links -/

section Frame

open Daemon

/-- As `Shrinks`, and nothing enters the list of sockets. -/
structure Cuts (D D' : Daemon) : Prop extends Shrinks D D' where
  list : D'.localSocketList ⊆ D.localSocketList

namespace Cuts

variable {D' D'' : Daemon}

lemma refl (D : Daemon) : Cuts D D := ⟨.refl D, List.Subset.refl _⟩

lemma trans (h : Cuts D D') (h' : Cuts D' D'') : Cuts D D'' :=
  ⟨h.toShrinks.trans h'.toShrinks, List.Subset.trans h'.list h.list⟩

lemma of_eq (hsockets : D'.sockets = D.sockets) (hnext : D'.nextAddr = D.nextAddr)
    (hlist : D'.localSocketList = D.localSocketList) : Cuts D D' :=
  ⟨.of_eq hsockets hnext, fun _ ha => hlist ▸ ha⟩

lemma setSocket (hs : D.sockets a = some s) {s' : Asocket}
    (hkind : s'.ops.isLocal = s.ops.isLocal) (hpeer : s'.peer = none ∨ s'.peer = s.peer) :
    Cuts D (D.setSocket a s') :=
  ⟨.assign hs rfl rfl hkind hpeer, List.Subset.refl _⟩

lemma freeSocket (a : Addr) (D : Daemon) : Cuts D (D.freeSocket a) :=
  ⟨.free rfl rfl, List.Subset.refl _⟩

end Cuts

lemma deref_ensures (a : Addr) (D : Daemon) :
    Ensures (D.deref a) fun s => D.sockets a = some s := by
  rw [deref]
  cases hs : D.sockets a with
  | none => exact .error trivial
  | some s => exact .ok rfl

lemma removeSocket_cuts (a : Addr) (D : Daemon) :
    Ensures (D.removeSocket a) (Cuts D) := by
  refine (deref_ensures a D).bind fun s _ hs => ?_
  split
  · exact .ok ⟨.assign hs rfl rfl rfl (.inr rfl), List.erase_subset⟩
  · exact .ok (.refl D)

lemma onLoop_cuts (f : Loop FdeId → Except Stop (Loop FdeId)) (D : Daemon) :
    Ensures (D.onLoop f) (Cuts D) := by
  rw [Daemon.onLoop]
  cases f D.loop with
  | error e => exact .error trivial
  | ok L => exact .ok (.of_eq rfl rfl rfl)

lemma putApackets_cuts (ps : List Apacket) (D : Daemon) : Cuts D (D.putApackets ps) := by
  obtain ⟨os, -, heq⟩ := putApackets_eq ps D
  rw [heq]
  exact .of_eq rfl rfl rfl

lemma sendPacket_cuts (via : Option Addr) (p : Apacket) (t : Option TAddr) (D : Daemon) :
    Ensures (D.sendPacket via p t) (Cuts D) := by
  cases t with
  | none => exact .ok (.refl D)
  | some t =>
    rw [Daemon.sendPacket, writePacket]
    cases D.derefT t with
    | error e => exact .error trivial
    | ok x =>
      simp only [Bind.bind, Except.bind]
      split
      · split
        · split
          · exact .ok (.of_eq rfl rfl rfl)
          · exact .error trivial
        · exact .error trivial
      · split
        · exact .error trivial
        · exact .error trivial

lemma removeTransportDisconnect_cuts (t : Option TAddr) (a : Addr) (D : Daemon) :
    Ensures (D.removeTransportDisconnect t a) (Cuts D) := by
  cases t with
  | none => exact .ok (.refl D)
  | some t =>
    rw [Daemon.removeTransportDisconnect]
    cases D.derefT t with
    | error e => exact .error trivial
    | ok x => exact .ok (.of_eq rfl rfl rfl)

lemma localSocketDestroy_cuts (a : Addr) (D : Daemon) :
    Ensures (D.localSocketDestroy a) (Cuts D) := by
  refine (deref_ensures a D).bind fun s _ _ => ?_
  refine (onLoop_cuts _ D).bind fun D₁ _ h₁ => ?_
  have hnote : Cuts D₁ (D₁.emit (.destroyed a s.queued)) := .of_eq rfl rfl rfl
  have hputs := hnote.trans (putApackets_cuts s.pkts _)
  refine (removeSocket_cuts a _).bind fun D₂ _ h₂ => ?_
  split
  · exact .error trivial
  · exact .ok (h₁.trans (hputs.trans (h₂.trans (Cuts.freeSocket a D₂))))

lemma localSocketRetire_cuts (a : Addr) (D : Daemon) :
    Ensures (D.localSocketRetire a) (Cuts D) := by
  refine (deref_ensures a D).bind fun s _ hs => ?_
  split
  · exact localSocketDestroy_cuts a D
  · have hclosing : Cuts D (D.setSocket a { s with closing := true }) :=
      .setSocket hs rfl (.inr rfl)
    refine (onLoop_cuts _ _).bind fun D₁ _ h₁ => ?_
    refine (removeSocket_cuts a D₁).bind fun D₂ _ h₂ => ?_
    exact .ok (hclosing.trans (h₁.trans (h₂.trans (.of_eq rfl rfl rfl))))

variable {close : Addr → Daemon → Except Stop Daemon}
  (hclose : ∀ a D, Ensures (close a D) (Cuts D))

include hclose

lemma closePeer_cuts (a : Addr) (D : Daemon) : Ensures (D.closePeer close a) (Cuts D) := by
  refine (deref_ensures a D).bind fun s _ _ => ?_
  cases hp : s.peer with
  | none => exact .ok (.refl D)
  | some p =>
    refine (deref_ensures p D).bind fun q _ hq => ?_
    have hcut : Cuts D (D.setSocket p { q with peer := none }) :=
      .setSocket hq rfl (.inl rfl)
    exact (hclose p _).mono fun D' h => hcut.trans h

lemma localSocketCloseLocked_cuts (a : Addr) (D : Daemon) :
    Ensures (D.localSocketCloseLocked close a) (Cuts D) := by
  refine (closePeer_cuts hclose a D).bind fun D₁ _ h₁ => ?_
  refine (deref_ensures a D₁).bind fun s _ hs => ?_
  have hcut : Cuts D₁ (D₁.setSocket a { s with peer := none }) :=
    .setSocket hs rfl (.inl rfl)
  exact (localSocketRetire_cuts a _).mono fun D₂ h₂ => h₁.trans (hcut.trans h₂)

/-- `local_socket_close_notify` puts the plain functions back before it closes. -/
lemma localSocketCloseNotify_cuts (hs : D.sockets a = some s) (hops : s.ops = .fdNotify) :
    Ensures (D.localSocketCloseNotify close a) (Cuts D) := by
  refine (deref_ensures a D).bind fun s' _ hs' => ?_
  cases hs.symm.trans hs'
  have hfd : Cuts D (D.setSocket a { s with ops := .fd }) :=
    .setSocket hs (by rw [hops]; rfl) (.inr rfl)
  obtain ⟨ws, os, -, heq⟩ := sendfailmsg_eq a "closed" (D.setSocket a { s with ops := .fd })
  refine (localSocketCloseLocked_cuts hclose a _).mono fun D' h => hfd.trans (.trans ?_ h)
  rw [heq]
  exact .of_eq rfl rfl rfl

lemma remoteSocketClose_cuts (r : Addr) (D : Daemon) :
    Ensures (D.remoteSocketClose close r) (Cuts D) := by
  refine (deref_ensures r D).bind fun s _ _ => ?_
  refine Outcome.bind (Q := fun _ => True) ?_ fun id _ _ => ?_
  · cases s.peer with
    | none => exact .ok trivial
    | some a =>
      refine (deref_ensures a _).bind fun q _ _ => ?_
      exact .ok trivial
  refine (closePeer_cuts hclose r _).bind fun D₁ _ h₁ => ?_
  refine (sendPacket_cuts (some r) _ s.transport D₁).bind fun D₂ _ h₂ => ?_
  refine (removeTransportDisconnect_cuts s.transport r D₂).bind fun D₃ _ h₃ => ?_
  have hget : Cuts D D.getApacket.2 := .of_eq rfl rfl rfl
  exact .ok (hget.trans (h₁.trans (h₂.trans (h₃.trans (Cuts.freeSocket r D₃)))))

lemma smartSocketClose_cuts (a : Addr) (D : Daemon) :
    Ensures (D.smartSocketClose close a) (Cuts D) := by
  refine (deref_ensures a D).bind fun s _ _ => ?_
  refine (closePeer_cuts hclose a _).bind fun D₁ _ h₁ => ?_
  exact .ok ((putApackets_cuts _ D).trans (h₁.trans (Cuts.freeSocket a D₁)))

lemma jdwpSocketClose_cuts (a : Addr) (D : Daemon) :
    Ensures (D.jdwpSocketClose close a) (Cuts D) := by
  refine (removeSocket_cuts a D).bind fun D₁ _ h₁ => ?_
  refine (closePeer_cuts hclose a D₁).bind fun D₂ _ h₂ => ?_
  exact .ok (h₁.trans (h₂.trans (Cuts.freeSocket a D₂)))

lemma jdwpTrackerClose_cuts (a : Addr) (D : Daemon) :
    Ensures (D.jdwpTrackerClose close a) (Cuts D) := by
  refine (closePeer_cuts hclose a D).bind fun D₁ _ h₁ => ?_
  refine (removeSocket_cuts a D₁).bind fun D₂ _ h₂ => ?_
  refine Outcome.bind (Q := fun _ => True) ?_ fun _ _ _ => ?_
  · rw [touchTrackers]
    split
    · exact .ok trivial
    · exact .error trivial
  · exact .ok (h₁.trans (h₂.trans ((Cuts.freeSocket a D₂).trans (.of_eq rfl rfl rfl))))

omit hclose in
lemma closeSocket_cuts (n : ℕ) (a : Addr) (D : Daemon) :
    Ensures (Daemon.closeSocket n a D) (Cuts D) := by
  induction n generalizing a D with
  | zero => exact .error trivial
  | succ n ih =>
    refine (deref_ensures a D).bind fun s _ hs => ?_
    cases hops : s.ops with
    | fd => exact localSocketCloseLocked_cuts ih a D
    | fdNotify => exact localSocketCloseNotify_cuts ih hs hops
    | remote => exact remoteSocketClose_cuts ih a D
    | smart => exact smartSocketClose_cuts ih a D
    | jdwp => exact jdwpSocketClose_cuts ih a D
    | tracker => exact jdwpTrackerClose_cuts ih a D

end Frame

/-! ## The close of a socket without a peer -/

section Single

/-- What every close function does for a socket without a peer: nothing. -/
lemma closePeer_single {close : Addr → Daemon → Locked Daemon}
    {close' : Addr → Daemon → Except Stop Daemon} (hs : D.sockets a = some s)
    (hp : s.peer = none) : Follows held (closePeer close a D) (D.closePeer close' a) := by
  refine Follows.bind (.lift _) fun s' hs' => ?_
  cases (Daemon.deref_eq hs).symm.trans hs'
  rw [hp]
  exact .pure D

lemma localSocketCloseLocked_single {close closeLocked : Addr → Daemon → Locked Daemon}
    {close' : Addr → Daemon → Except Stop Daemon} (hs : D.sockets a = some s)
    (hp : s.peer = none) :
    Follows held (localSocketCloseLocked close closeLocked a D)
      (D.localSocketCloseLocked close' a) :=
  .bind (closePeer_single hs hp) fun _ _ => .bind (.lift _) fun _ _ => .lift _

/-- Unless the socket has a descriptor, its close does not touch the mutex. -/
lemma closeSocket_single (hs : D.sockets a = some s) (hp : s.peer = none)
    (hfd : s.ops.isFd = false) :
    Follows held (closeSocket n a D) (Daemon.closeSocket n a D) := by
  cases n with
  | zero => exact .lift _
  | succ n =>
    refine Follows.bind (.lift _) fun s' hs' => ?_
    cases (Daemon.deref_eq hs).symm.trans hs'
    cases hops : s.ops with
    | fd =>
      rw [hops] at hfd
      cases hfd
    | fdNotify =>
      rw [hops] at hfd
      cases hfd
    | remote =>
      refine Follows.bind (.lift _) fun s' hs' => ?_
      cases (Daemon.deref_eq hs).symm.trans hs'
      refine Follows.bind (.lift _) fun id _ => ?_
      refine Follows.bind (closePeer_single hs hp) fun D₁ _ => ?_
      refine Follows.bind (.lift _) fun D₂ _ => ?_
      exact Follows.bind (.lift _) fun D₃ _ => .pure _
    | smart =>
      refine Follows.bind (.lift _) fun s' hs' => ?_
      have hputs : (D.putApackets (s'.pkts.take 1)).sockets a = some s := by
        obtain ⟨os, -, heq⟩ := putApackets_eq (s'.pkts.take 1) D
        rw [heq]
        exact hs
      exact Follows.bind (closePeer_single hputs hp) fun D₁ _ => .pure _
    | jdwp =>
      refine Follows.bind (.lift _) fun D₁ hD₁ => ?_
      obtain ⟨i, heq⟩ := Daemon.removeSocket_eq hs
      cases heq.symm.trans hD₁
      exact Follows.bind (closePeer_single (update_self ..) hp) fun D₂ _ => .pure _
    | tracker =>
      refine Follows.bind (closePeer_single hs hp) fun D₁ _ => ?_
      refine Follows.bind (.lift _) fun D₂ _ => ?_
      exact Follows.bind (.lift _) fun _ _ => .pure _

/-- With the mutex free any socket without a peer can be closed. -/
lemma closeSocket_free (hs : D.sockets a = some s) (hp : s.peer = none) :
    Follows false (closeSocket n a D) (Daemon.closeSocket n a D) := by
  rcases Bool.eq_false_or_eq_true s.ops.isFd with hfd | hfd
  case inr => exact closeSocket_single hs hp hfd
  case inl =>
    cases n with
    | zero => exact .lift _
    | succ n =>
      refine Follows.bind (.lift _) fun s' hs' => ?_
      cases (Daemon.deref_eq hs).symm.trans hs'
      cases hops : s.ops with
      | fd => exact .guarded (localSocketCloseLocked_single hs hp)
      | fdNotify =>
        refine Follows.bind (.lift _) fun s' hs' => ?_
        cases (Daemon.deref_eq hs).symm.trans hs'
        obtain ⟨ws, os, -, heq⟩ :=
          Daemon.sendfailmsg_eq a "closed" (D.setSocket a { s with ops := .fd })
        refine .guarded (localSocketCloseLocked_single (s := { s with ops := .fd }) ?_ hp)
        rw [heq]
        exact Daemon.setSocket_sockets_self ..
      | _ =>
        rw [hops] at hfd
        cases hfd

end Single

/-! ## The close of a socket with a peer -/

section Pair

variable {close : Addr → Daemon → Locked Daemon} {close' : Addr → Daemon → Except Stop Daemon}

/-- The peer is closed on its own. -/
lemma closePeer_pair
    (hclose : ∀ p q, s.peer = some p → D.sockets p = some q →
      Follows held (close p (D.setSocket p { q with peer := none }))
        (close' p (D.setSocket p { q with peer := none })))
    (hs : D.sockets a = some s) :
    Follows held (closePeer close a D) (D.closePeer close' a) := by
  refine Follows.bind (.lift _) fun s' hs' => ?_
  cases (Daemon.deref_eq hs).symm.trans hs'
  cases hp : s.peer with
  | none => exact .pure D
  | some p =>
    refine Follows.bind (.lift _) fun q hq => ?_
    exact hclose p q hp ((deref_ensures p D).success hq)

/-- With the mutex free, anybody's peer can be closed. -/
lemma closePeer_free (hs : D.sockets a = some s) :
    Follows false (closePeer (closeSocket n) a D) (D.closePeer (Daemon.closeSocket n) a) :=
  closePeer_pair (fun _ _ _ _ => closeSocket_free (Daemon.setSocket_sockets_self ..) rfl) hs

/-- Under the mutex, the peer of a socket of the lists can be closed. -/
lemma localSocketCloseLocked_follows (hD : D.Typed) (hs : D.sockets a = some s)
    (hlocal : s.ops.isLocal = true) :
    Follows true (localSocketCloseLocked (closeSocket n) (closeLocked n) a D)
      (D.localSocketCloseLocked (Daemon.closeSocket n) a) := by
  refine Follows.bind (closePeer_pair (fun p q hp hq => ?_) hs) fun D₁ _ => ?_
  · have hkind := (hD a s p hs hp).2 q hq
    rw [hlocal] at hkind
    -- the peer is a remote or a smart socket, so the special case does not apply
    have hfd : q.ops.isFd = false := by
      cases hops : q.ops <;> rw [hops] at hkind <;> first | rfl | cases hkind
    have hself := Daemon.setSocket_sockets_self p { q with peer := none } D
    refine Follows.of_lift (Daemon.deref_eq hself) ?_
    rw [if_neg]
    · exact closeSocket_single hself rfl hfd
    · intro hops
      rw [show q.ops = .fd from hops] at hfd
      cases hfd
  · exact .bind (.lift _) fun _ _ => .lift _

/-- With the mutex free any socket can be closed. -/
lemma closeSocket_follows (hD : D.Typed) (n : ℕ) (a : Addr) :
    Follows false (closeSocket n a D) (Daemon.closeSocket n a D) := by
  cases n with
  | zero => exact .lift _
  | succ n =>
    refine Follows.bind (.lift _) fun s hs => ?_
    replace hs := (deref_ensures a D).success hs
    cases hops : s.ops with
    | fd => exact .guarded (localSocketCloseLocked_follows hD hs (by rw [hops]; rfl))
    | fdNotify =>
      refine Follows.bind (.lift _) fun s' hs' => ?_
      cases (Daemon.deref_eq hs).symm.trans hs'
      obtain ⟨ws, os, -, heq⟩ :=
        Daemon.sendfailmsg_eq a "closed" (D.setSocket a { s with ops := .fd })
      have hfd : Cuts D (D.setSocket a { s with ops := .fd }) :=
        .setSocket hs (by rw [hops]; rfl) (.inr rfl)
      dsimp only
      rw [heq]
      refine .guarded (localSocketCloseLocked_follows (s := { s with ops := .fd }) ?_ ?_ rfl)
      · exact (hfd.trans (.of_eq rfl rfl rfl)).typed hD
      · exact Daemon.setSocket_sockets_self ..
    | remote =>
      refine Follows.bind (.lift _) fun s' hs' => ?_
      refine Follows.bind (.lift _) fun id _ => ?_
      refine Follows.bind (closePeer_free hs) fun D₁ _ => ?_
      refine Follows.bind (.lift _) fun D₂ _ => ?_
      exact Follows.bind (.lift _) fun D₃ _ => .pure _
    | smart =>
      refine Follows.bind (.lift _) fun s' hs' => ?_
      have hputs : (D.putApackets (s'.pkts.take 1)).sockets a = some s := by
        obtain ⟨os, -, heq⟩ := putApackets_eq (s'.pkts.take 1) D
        rw [heq]
        exact hs
      exact Follows.bind (closePeer_free hputs) fun D₁ _ => .pure _
    | jdwp =>
      refine Follows.bind (.lift _) fun D₁ hD₁ => ?_
      obtain ⟨i, heq⟩ := Daemon.removeSocket_eq hs
      cases heq.symm.trans hD₁
      exact Follows.bind (closePeer_free (update_self ..)) fun D₂ _ => .pure _
    | tracker =>
      refine Follows.bind (closePeer_free hs) fun D₁ _ => ?_
      refine Follows.bind (.lift _) fun D₂ _ => ?_
      exact Follows.bind (.lift _) fun _ _ => .pure _

end Pair

/-! ## Closing by transport -/

/-- The list of sockets holds no remote and no smart socket. -/
def ListsLocal (D : Daemon) : Prop :=
  ∀ a ∈ D.localSocketList, ∀ s, D.sockets a = some s → s.ops.isLocal = true

lemma Cuts.listsLocal {D' : Daemon} (h : Cuts D D') (hD : ListsLocal D) : ListsLocal D' := by
  intro a ha s' hs'
  obtain ⟨s, hs, hkind, -⟩ := h.socket a s' hs'
  rw [hkind]
  exact hD a (h.list ha) s hs

/-- The walk of `close_all_sockets`, under the mutex. -/
lemma closeAllFuel_follows (hD : D.Typed) (hlists : ListsLocal D) :
    Follows true (closeAllFuel t fuel D) (D.closeAllFuel t fuel) := by
  induction fuel generalizing D with
  | zero => exact .lift _
  | succ fuel ih =>
    rw [closeAllFuel, Daemon.closeAllFuel]
    cases hfind : D.localSocketList.find? fun a => D.boundTo t a with
    | none => exact .pure D
    | some a =>
      have hbound : D.boundTo t a = true := List.find?_some (p := D.boundTo t) hfind
      obtain ⟨s, hs, -⟩ := (Option.any_eq_true _ _).mp hbound
      have hlocal := hlists a (List.mem_of_find?_eq_some hfind) s hs
      refine Follows.bind (localSocketCloseLocked_follows hD hs hlocal) fun D₁ hD₁ => ?_
      have hcuts := (localSocketCloseLocked_cuts (closeSocket_cuts 1) a D).success hD₁
      exact ih (hcuts.typed hD) (hcuts.listsLocal hlists)

/-- The disconnect records are run with the mutex free. -/
lemma runDisconnects_follows {next : Option Addr} :
    Follows false (runDisconnects t fuel next D) (D.runDisconnects t fuel next) := by
  induction fuel generalizing D next with
  | zero =>
    cases next with
    | none => exact .pure D
    | some r => exact .lift _
  | succ fuel ih =>
    cases next with
    | none => exact .pure D
    | some r =>
      refine Follows.bind (.lift _) fun x _ => ?_
      refine Follows.bind ?_ fun D₁ _ => ih
      refine Follows.bind (.lift _) fun s hs => ?_
      refine Follows.bind (closePeer_free ((deref_ensures r D).success hs)) fun D₁ _ => ?_
      exact Follows.bind (.lift _) fun D₂ _ => .pure _

/-! ## No self-deadlock -/

/-- A call that may be made does what it does without the mutex, and leaves the mutex free. -/
theorem make_follows (hD : D.Typed) (hlists : ListsLocal D) (c : Call) :
    Follows false (c.make D) (c.plain D) := by
  cases c with
  | close a => exact closeSocket_follows hD 2 a
  | closeAll t => exact .guarded (closeAllFuel_follows hD hlists)
  | disconnects t => exact Follows.bind (.lift _) fun x _ => runDisconnects_follows
  | find id => exact .guarded (.lift (.ok _))
  | install a => exact .guarded (.lift _)

/-- `D` is a state the daemon is in at some moment of some step. -/
def Occurs (D : Daemon) : Prop :=
  ∃ e D₀ m, Daemon.Reachable D₀ ∧ ReflTransGen (Effect e D₀) { d := D₀ } m ∧ m.d = D

lemma Occurs.typed (h : Occurs D) : D.Typed := by
  obtain ⟨e, D₀, m, hreach, hpath, rfl⟩ := h
  exact typed_of_path hreach hpath

lemma Occurs.listsLocal (h : Occurs D) : ListsLocal D := by
  obtain ⟨e, D₀, m, hreach, hpath, rfl⟩ := h
  intro a ha s hs
  obtain ⟨s', hs', -, hlocal⟩ := (wf_of_path hpath hreach.wf).peers.listed a ha
  cases hs.symm.trans hs'
  exact hlocal

/-- A thread that makes one call after another, each at some moment of a step, never tries to
take the mutex it holds, whatever the sockets it closes are connected to.  Each call finds the
mutex free and gives it back, and does what it does in the model without the mutex. -/
theorem no_self_deadlock (calls : List (Call × Daemon)) (h : ∀ c ∈ calls, Occurs c.2) :
    session (calls.map fun c => c.1.make c.2) false ≠ .error .deadlock ∧
      ∀ c ∈ calls, Follows false (c.1.make c.2) (c.1.plain c.2) := by
  have hfollows : ∀ c ∈ calls, Follows false (c.1.make c.2) (c.1.plain c.2) :=
    fun c hc => make_follows (h c hc).typed (h c hc).listsLocal c.1
  refine ⟨session_no_deadlock fun x hx => ?_, hfollows⟩
  obtain ⟨c, hc, rfl⟩ := List.mem_map.mp hx
  exact ⟨_, hfollows c hc⟩

/-- The theorem for a host's shell: its stream is closed from either end and by its transport. -/
theorem no_self_deadlock_shell : ∃ D, (D.sockets 0).map (·.peer) = some (some 1) ∧
    session ([(Call.find 1, D), (.close 0, D), (.close 1, D), (.closeAll 0, D)].map
      fun c => c.1.make c.2) false ≠ .error .deadlock := by
  obtain ⟨D, hD, hs⟩ := @exists_reachable (Option (Option Addr)) PeerLinks.unlocked
    [3, 4, 6, 7, 8, 9] (fun _ => false) PeerLinks.openShell (fun D => (D.sockets 0).map (·.peer))
    (some (some 1)) (by decide +kernel)
  have hoccurs : Occurs D := ⟨⟨.epollWait [], {}⟩, D, { d := D }, hD, .refl, rfl⟩
  refine ⟨D, hs, (no_self_deadlock _ fun c hc => ?_).1⟩
  simp only [List.mem_cons, List.not_mem_nil, or_false] at hc
  rcases hc with rfl | rfl | rfl | rfl <;> exact hoccurs

/-- Two sockets with a descriptor, one of them waiting for its stream, could not be peers: closing
the other one would take the mutex twice. -/
example (L : Loop FdeId) :
    close 0 ({ loop := L, sockets := fun a => match a with
      | 0 => some { ops := .fd, peer := some 1 }
      | 1 => some { ops := .fdNotify, peer := some 0 }
      | _ => none } : Daemon) false = .error .deadlock := rfl

end Adbd.SocketLock
