import Adbd.Properties.CloseAll

/-!
# `run_transport_disconnects`

When a transport goes offline its disconnect functions are called one after the other.  Each of
them frees the remote socket its record is a part of and closes the local socket on the other side,
while the loop holds on to the record that comes next.  The remote sockets are paired one to one
with local sockets, so that no close reaches another record: the loop calls every function once, in
the order of the list, and the record it has saved is linked and alive when it gets there.

A stream with `exit_on_close` ends the daemon in the middle of the walk.
-/

namespace Adbd

open Function Transition

namespace Daemon

variable {D D' : Daemon} {a b p r : Addr} {s q : Asocket} {t : TAddr} {x : Atransport} {e : Stop}
  {X : Set Addr} {L : Loop FdeId}

/-! ## Closing a socket whose peer is gone -/

/-- What is left of a local socket once it is closed. -/
def flushed (s : Asocket) : Option Asocket :=
  if s.pkts.isEmpty then none
  else some { s with ops := .fd, peer := none, closing := true, id := 0 }

/-- The local socket `p`, which had no peer any more, is closed. -/
structure Lone (X : Set Addr) (D : Daemon) (p : Addr) (s : Asocket) (D' : Daemon) : Prop where
  self : D'.sockets p = flushed s
  others : ∀ b, b ≠ p → D'.sockets b = D.sockets b
  transports : D'.transports = D.transports
  list : D'.localSocketList = D.localSocketList.erase p
  closing : D'.localSocketClosingList =
    D.localSocketClosingList ++ if s.pkts.isEmpty then [] else [p]
  graph : Graph (X \ {p}) D'
  placed : Placed D → Placed D'
  sent : sends D'.trace = sends D.trace

/-- Why closing the socket may end the daemon.  The last possibility is that `jdwp_tracker_close`
writes to a tracker that has been freed. -/
def LoneEnds (D : Daemon) (p : Addr) (s : Asocket) (e : Stop) : Prop :=
  e = .exitOnClose p ∧ s.exitOnClose = true ∨ IsFatal e ∧ ¬Placed D ∨
    s.ops = .tracker ∧ ∃ u, e = .staleTracker u

/-- The socket is in `local_socket_list`, and its peer is gone. -/
structure Alone (X : Set Addr) (D : Daemon) (p : Addr) (s : Asocket) : Prop where
  graph : Graph X D
  orphan : p ∈ X
  live : D.sockets p = some s
  peer : s.peer = none
  listed : p ∈ D.localSocketList

lemma Alone.open (h : Alone X D p s) : s.closing = false ∧ s.ops.isLocal = true := by
  obtain ⟨s', hs', hclosing, hlocal⟩ := h.graph.listed p h.listed
  cases h.live.symm.trans hs'
  exact ⟨hclosing, hlocal⟩

lemma Alone.plain (h : Alone X D p s) (hfd : s.ops.isFd = false) : s.pkts = [] := by
  apply h.graph.plain p s h.live
  have hlocal := h.open.2
  revert hfd hlocal
  cases s.ops <;> simp [SocketOps.isFd, SocketOps.isLocal]

lemma Alone.notClosing (h : Alone X D p s) : p ∉ D.localSocketClosingList := by
  intro hmem
  obtain ⟨s', hs', hclosing, -⟩ := h.graph.flushing p hmem
  cases h.live.symm.trans hs'
  rw [h.open.1] at hclosing
  cases hclosing

/-- What the source keeps of a socket is what is said to be left. -/
lemma Alone.remains_eq (h : Alone X D p s) (hops : s.ops = .fd ∨ s.ops.isFd = false) :
    remains s = flushed s := by
  rw [remains, flushed, h.open.1, Bool.false_or]
  rcases hops with hops | hfd
  · rw [← h.peer, ← hops]
  · rw [h.plain hfd]
    rfl

/-- The end of every close. -/
lemma Alone.lone {z : Asocket} (h : Alone X D p s) (hops : s.ops = .fd ∨ s.ops.isFd = false)
    (hsame : flushed z = flushed s) (hempty : z.pkts = s.pkts)
    (hself : D'.sockets = update D.sockets p (remains s)) (hnext : D'.nextAddr = D.nextAddr)
    (htr : D'.transports = D.transports) (hlist : D'.localSocketList = D.localSocketList.erase p)
    (hclosing : D'.localSocketClosingList = D.localSocketClosingList.erase p ++
      if (remains s).isSome then [p] else [])
    (hL : Lets p s D.loop D'.loop ∨ D'.loop = D.loop ∧ remains s = none)
    (howner : D'.owner = D.owner) (hsent : sends D'.trace = sends D.trace) :
    Lone X D p z D' := by
  have hothers : ∀ b, b ≠ p → D'.sockets b = D.sockets b := by
    intro b hb
    rw [hself, update_of_ne hb]
  refine ⟨?_, hothers, htr, hlist, ?_, ?_, ?_, hsent⟩
  · rw [hself, update_self, h.remains_eq hops, hsame]
  · rw [hclosing, List.erase_of_not_mem h.notClosing, remains_isSome h.open.1, hempty]
    cases s.pkts <;> rfl
  · rw [Graph, hself, hnext, htr, hlist, hclosing]
    exact h.graph.retired h.orphan h.live h.peer h.open.2 h.plain
  · intro hplaced
    rcases hL with hL | ⟨hloop, hnone⟩
    · apply hplaced.after h.live rfl hL howner ((congrFun hself p).trans (update_self ..))
      · intro hne
        by_contra hfd
        rw [Bool.not_eq_true] at hfd
        rw [hself, update_self, remains_of_empty (h.plain hfd)] at hne
        exact hne rfl
      · intro b q hb hq
        exact ⟨q, (hothers b hb).symm.trans hq, rfl⟩
    · apply hplaced.keep hloop howner
      intro b q hq
      have hb : b ≠ p := by
        rintro rfl
        rw [hself, update_self, hnone] at hq
        cases hq
      exact ⟨q, (hothers b hb).symm.trans hq, rfl⟩

/-- The end of `local_socket_close_locked`. -/
lemma Alone.retired {z : Asocket} (h : Alone X D p s) (hops : s.ops = .fd ∨ s.ops.isFd = false)
    (hsame : flushed z = flushed s) (hempty : z.pkts = s.pkts)
    (hexit : z.exitOnClose = s.exitOnClose) :
    Outcome (D.localSocketRetire p) (Lone X D p z) (LoneEnds D p z) := by
  refine (localSocketRetire_outcome h.live h.listed h.plain).imp ?_ ?_
  · rintro D' ⟨L, os, hos, hL, rfl⟩
    refine h.lone hops hsame hempty rfl rfl rfl rfl rfl (Or.inl hL) rfl ?_
    show sends (os ++ D.trace) = _
    rw [sends_append, hos, List.nil_append]
  · rintro e (⟨he, hs⟩ | ⟨hfatal, hno⟩)
    · exact Or.inl ⟨he, hexit.trans hs⟩
    · exact Or.inr (Or.inl ⟨hfatal, fun hplaced => hno (hplaced p s h.live)⟩)

/-- `local_socket_close_locked`. -/
lemma Alone.localSocketCloseLocked {z : Asocket} (h : Alone X D p s) (hops : s.ops = .fd)
    (hsame : flushed z = flushed s) (hempty : z.pkts = s.pkts)
    (hexit : z.exitOnClose = s.exitOnClose) :
    Outcome (D.localSocketCloseLocked (closeSocket 0) p) (Lone X D p z) (LoneEnds D p z) := by
  have hpeerless : D.closePeer (closeSocket 0) p = .ok D := by
    rw [closePeer, deref_bind h.live, h.peer]
    rfl
  have hset : D.setSocket p { s with peer := none } = D :=
    setSocket_eq_self (by rw [h.live, ← h.peer])
  rw [Daemon.localSocketCloseLocked, hpeerless]
  show Outcome (D.deref p >>= _) _ _
  rw [deref_bind h.live, hset]
  exact h.retired (Or.inl hops) hsame hempty hexit

/-- `s->close(s)` of a local socket whose peer has let go of it. -/
lemma Alone.closeSocket (h : Alone X D p s) :
    Outcome (closeSocket 1 p D) (Lone X D p s) (LoneEnds D p s) := by
  rw [Daemon.closeSocket, deref_bind h.live]
  have hempty : s.ops.isFd = false → remains s = none := fun hfd => remains_of_empty (h.plain hfd)
  set D₁ : Daemon := { D.setSocket p { s with id := 0 } with
    localSocketList := D.localSocketList.erase p
    localSocketClosingList := D.localSocketClosingList.erase p } with hD₁
  have hremove : D.removeSocket p = .ok D₁ := by
    rw [removeSocket, deref_bind h.live, if_pos (Or.inl h.listed)]
    rfl
  cases hops : s.ops with
  | fd => exact h.localSocketCloseLocked hops rfl rfl rfl
  | fdNotify =>
    obtain ⟨ws, os, hos, htold⟩ := sendfailmsg_eq p "closed" (D.setSocket p { s with ops := .fd })
    show Outcome (D.localSocketCloseNotify (Daemon.closeSocket 0) p) _ _
    rw [localSocketCloseNotify, deref_bind h.live]
    show Outcome (Daemon.localSocketCloseLocked (Daemon.closeSocket 0) p (sendfailmsg p "closed" _))
      _ _
    rw [htold]
    set D₂ : Daemon := { D.setSocket p { s with ops := .fd } with
      io := { D.io with writes := ws }, trace := os ++ D.trace } with hD₂
    have hlone : Alone X D₂ p { s with ops := .fd } :=
      ⟨h.graph.data h.live _ (Or.inr ⟨hops, rfl⟩) rfl rfl rfl (Or.inl rfl), h.orphan,
        update_self .., h.peer, h.listed⟩
    have hkinds : ∀ b q, D₂.sockets b = some q → ∃ q₀, D.sockets b = some q₀ ∧
        q.ops.isFd = q₀.ops.isFd := by
      intro b q hb
      by_cases hbp : b = p
      · subst hbp
        cases hlone.live.symm.trans hb
        exact ⟨s, h.live, by rw [hops]; rfl⟩
      · exact ⟨q, (update_of_ne hbp ..).symm.trans hb, rfl⟩
    have hplaced : Placed D → Placed D₂ := fun hplaced => hplaced.keep rfl rfl hkinds
    refine (hlone.localSocketCloseLocked (z := s) rfl rfl rfl rfl).imp ?_ ?_
    · intro D' hc
      refine ⟨hc.self, ?_, hc.transports, hc.list, hc.closing, hc.graph,
        fun hp => hc.placed (hplaced hp), ?_⟩
      · intro b hb
        rw [hc.others b hb]
        exact update_of_ne hb ..
      · rw [hc.sent]
        show sends (os ++ D.trace) = _
        rw [sends_append, hos, List.nil_append]
    · rintro e (hexit | ⟨hfatal, hno⟩ | htracker)
      · exact Or.inl hexit
      · exact Or.inr (Or.inl ⟨hfatal, fun hp => hno (hplaced hp)⟩)
      · exact Or.inr (Or.inr htracker)
  | jdwp =>
    have hfd : s.ops.isFd = false := by rw [hops]; rfl
    show Outcome (D.jdwpSocketClose (Daemon.closeSocket 0) p) _ _
    rw [jdwpSocketClose, hremove]
    show Outcome (closePeer (Daemon.closeSocket 0) p D₁ >>= _) _ _
    rw [closePeer, deref_bind (update_self ..)]
    dsimp only
    rw [h.peer]
    refine Outcome.ok (h.lone (Or.inr hfd) rfl rfl ?_ rfl rfl rfl ?_ (Or.inr ⟨rfl, hempty hfd⟩)
      rfl rfl)
    · rw [hempty hfd]
      exact update_idem ..
    · rw [hempty hfd]
      exact (List.append_nil _).symm
  | tracker =>
    have hfd : s.ops.isFd = false := by rw [hops]; rfl
    show Outcome (D.jdwpTrackerClose (Daemon.closeSocket 0) p) _ _
    have hpeerless : D.closePeer (Daemon.closeSocket 0) p = .ok D := by
      rw [closePeer, deref_bind h.live, h.peer]
      rfl
    rw [jdwpTrackerClose, hpeerless]
    show Outcome (D.removeSocket p >>= _) _ _
    rw [hremove]
    show Outcome (D₁.touchTrackers (neighbours p D.jdwpTrackersList) >>= _) _ _
    cases htouch : D₁.touchTrackers (neighbours p D.jdwpTrackersList) with
    | error e =>
      show LoneEnds D p s e
      refine Or.inr (Or.inr ⟨hops, ?_⟩)
      rw [touchTrackers] at htouch
      split at htouch
      · cases htouch
      · cases htouch
        exact ⟨_, rfl⟩
    | ok _ =>
      show Lone X D p s { D₁.freeSocket p with jdwpTrackersList := D.jdwpTrackersList.erase p }
      refine h.lone (Or.inr hfd) rfl rfl ?_ rfl rfl rfl ?_ (Or.inr ⟨rfl, hempty hfd⟩) rfl rfl
      · rw [hempty hfd]
        exact update_idem ..
      · rw [hempty hfd]
        exact (List.append_nil _).symm
  | remote =>
    have hlocal := h.open.2
    rw [hops] at hlocal
    cases hlocal
  | smart =>
    have hlocal := h.open.2
    rw [hops] at hlocal
    cases hlocal

/-! ## One record -/

/-- The remote socket `r` of `t` and the local socket `p` are a stream. -/
structure Stream (D : Daemon) (t : TAddr) (r : Addr) (q : Asocket) (p : Addr) (s : Asocket) :
    Prop where
  remote : D.sockets r = some q
  isRemote : q.ops = .remote
  transport : q.transport = some t
  peer : q.peer = some p
  near : D.sockets p = some s
  back : s.peer = some r
  isLocal : s.ops.isLocal = true

lemma Stream.ne (h : Stream D t r q p s) : p ≠ r := by
  rintro rfl
  cases h.remote.symm.trans h.near
  have hlocal := h.isLocal
  rw [h.isRemote] at hlocal
  cases hlocal

/-- Every remote socket is one end of a stream. -/
lemma exists_stream (h : Graph ∅ D) (hr : D.sockets r = some q) (hrem : q.ops = .remote)
    (ht : q.transport = some t) : ∃ p s, Stream D t r q p s := by
  cases hp : q.peer with
  | none =>
    have hfd := h.unpaired r q (Set.notMem_empty r) hr hp
    rw [hrem] at hfd
    cases hfd
  | some p =>
    obtain ⟨-, s, hs, hback, hpairs⟩ := h.paired r q p (Set.notMem_empty r) hr hp
    rw [hrem] at hpairs
    exact ⟨p, s, hr, hrem, ht, hp, hs, hback, hpairs⟩

/-- The stream of the record `r` is shut, and nothing else has happened. -/
structure Detached (t : TAddr) (x : Atransport) (r p : Addr) (s : Asocket) (D D' : Daemon) :
    Prop where
  record : D'.sockets r = none
  near : D'.sockets p = flushed s
  others : ∀ b, b ≠ r → b ≠ p → D'.sockets b = D.sockets b
  transports : D'.transports =
    update D.transports t (some { x with disconnects := x.disconnects.erase r })
  list : D'.localSocketList = D.localSocketList.erase p
  closing : D'.localSocketClosingList =
    D.localSocketClosingList ++ if s.pkts.isEmpty then [] else [p]
  graph : Graph ∅ D'
  placed : Placed D → Placed D'
  sent : sends D'.trace = sends D.trace

/-- `remote_socket_disconnect`. -/
lemma remoteSocketDisconnect_outcome (h : Graph ∅ D) (hst : Stream D t r q p s)
    (hx : D.transports t = some x) :
    Outcome (D.remoteSocketDisconnect (closeSocket 1) r) (Detached t x r p s D)
      (LoneEnds D p s) := by
  have hlisted : p ∈ D.localSocketList :=
    (h.listed_of_peer hst.near (by rw [hst.back]; nofun) hst.isLocal).1
  rw [remoteSocketDisconnect, deref_bind hst.remote, closePeer, deref_bind hst.remote, hst.peer]
  dsimp only
  rw [deref_bind hst.near, hst.transport]
  set D₁ : Daemon := D.setSocket p { s with peer := none } with hD₁
  have hgraph : Graph (insert r (insert p ∅)) D₁ :=
    (h.sever hst.remote hst.peer (Set.notMem_empty r)).rewrite hst.near (by simp) _ rfl rfl rfl
      (Or.inl rfl) rfl
  have halone : Alone (insert r (insert p ∅)) D₁ p { s with peer := none } :=
    ⟨hgraph, by simp, update_self .., rfl, hlisted⟩
  have hplaced : Placed D → Placed D₁ := by
    intro hplaced
    refine hplaced.keep rfl rfl fun b z hb => ?_
    by_cases hbp : b = p
    · subst hbp
      cases halone.live.symm.trans hb
      exact ⟨s, hst.near, rfl⟩
    · exact ⟨z, (update_of_ne hbp ..).symm.trans hb, rfl⟩
  cases hclose : closeSocket 1 p D₁ with
  | error e =>
    rcases halone.closeSocket.stop hclose with hexit | ⟨hfatal, hno⟩ | htracker
    · exact Or.inl hexit
    · exact Or.inr (Or.inl ⟨hfatal, fun hp => hno (hplaced hp)⟩)
    · exact Or.inr (Or.inr htracker)
  | ok D₂ =>
    have hlone := halone.closeSocket.success hclose
    have hx₂ : D₂.transports t = some x := by
      rw [hlone.transports]
      exact hx
    have hr₂ : D₂.sockets r = some q := by
      rw [hlone.others r hst.ne.symm]
      exact (update_of_ne hst.ne.symm ..).trans hst.remote
    have hrest : (insert r (insert p ∅) : Set Addr) \ {p} = {r} := by
      ext b
      simp only [Set.mem_sdiff, Set.mem_insert_iff, Set.mem_empty_iff_false, or_false,
        Set.mem_singleton_iff]
      constructor
      · rintro ⟨rfl | rfl, hbp⟩
        · rfl
        · exact absurd rfl hbp
      · rintro rfl
        exact ⟨Or.inl rfl, hst.ne.symm⟩
    have hgone := hlone.graph
    rw [hrest] at hgone
    have hdrop := hgone.dropRemote hr₂ (Set.mem_singleton r) hst.isRemote hst.transport
      (disconnectsOf_eq hx₂)
    have hnone : ({r} : Set Addr) \ {r} = ∅ := Set.sdiff_self
    rw [hnone] at hdrop
    show Outcome (D₂.removeTransportDisconnect (some t) r >>= _) _ _
    rw [removeTransportDisconnect, derefT_bind hx₂]
    refine Outcome.ok (b := freeSocket r
      (D₂.setTransport t { x with disconnects := x.disconnects.erase r }))
      ⟨update_self .., ?_, ?_, ?_, hlone.list, hlone.closing, ?_, ?_, hlone.sent⟩
    · exact (update_of_ne hst.ne ..).trans hlone.self
    · intro b hbr hbp
      refine (update_of_ne hbr ..).trans ((hlone.others b hbp).trans ?_)
      exact update_of_ne hbp ..
    · show update D₂.transports t _ = _
      rw [hlone.transports]
      rfl
    · show PeerWf ∅ (update D₂.sockets r none) D₂.nextAddr D₂.localSocketList
        D₂.localSocketClosingList (disconnectsOf (update D₂.transports t (some _)))
      rw [disconnectsOf_update]
      exact hdrop
    · intro hp
      refine (hlone.placed (hplaced hp)).keep rfl rfl fun b z hb => ?_
      have hbr : b ≠ r := by
        rintro rfl
        change update D₂.sockets b none b = some z at hb
        rw [update_self] at hb
        cases hb
      exact ⟨z, (update_of_ne hbr ..).symm.trans hb, rfl⟩

/-! ## The walk -/

/-- The peer of the socket is one of `l`. -/
def pairedWith (l : List Addr) (D : Daemon) (b : Addr) : Bool :=
  (D.sockets b).any fun s => s.peer.any fun r => decide (r ∈ l)

/-- The local socket of the record, if it has packets queued. -/
def flushing (D : Daemon) (r : Addr) : Option Addr :=
  ((D.sockets r).bind (·.peer)).filter fun p => D.hasQueue p

lemma pairedWith_eq {l : List Addr} (hs : D.sockets b = some s) (hp : s.peer = some r) :
    D.pairedWith l b = decide (r ∈ l) := by
  rw [pairedWith, hs, Option.any_some, hp, Option.any_some]

lemma pairedWith_append (l k : List Addr) (b : Addr) :
    D.pairedWith (l ++ k) b = (D.pairedWith l b || D.pairedWith k b) := by
  rw [pairedWith, pairedWith, pairedWith]
  cases D.sockets b with
  | none => rfl
  | some s =>
    rw [Option.any_some, Option.any_some, Option.any_some]
    cases s.peer with
    | none => rfl
    | some r => simp [List.mem_append]

/-- Who is paired with the record of a stream is its local socket. -/
lemma Stream.pairedWith_single (hst : Stream D t r q p s) (h : Graph ∅ D) (b : Addr) :
    D.pairedWith [r] b = decide (b = p) := by
  by_cases hb : b = p
  · subst hb
    rw [pairedWith_eq hst.near hst.back]
    simp
  · rw [decide_eq_false hb, pairedWith]
    cases hz : D.sockets b with
    | none => rfl
    | some z =>
      rw [Option.any_some]
      cases hp : z.peer with
      | none => rfl
      | some c =>
        have hcr : c ≠ r := by
          rintro rfl
          obtain ⟨-, q', hq', hback, -⟩ := h.paired b z c (Set.notMem_empty b) hz hp
          cases hst.remote.symm.trans hq'
          rw [hst.peer, Option.some.injEq] at hback
          exact hb hback.symm
        rw [Option.any_some]
        simp [hcr]

/-- Where the walk over the records of `t` has got to: the records `done` are gone, and `l` are
left. -/
structure Walked (t : TAddr) (x : Atransport) (D : Daemon) (done l : List Addr) (D' : Daemon) :
    Prop where
  split : x.disconnects = done ++ l
  graph : Graph ∅ D'
  transports : D'.transports = update D.transports t (some { x with disconnects := l })
  records : ∀ r ∈ done, D'.sockets r = none
  near : ∀ p s, D.pairedWith done p = true → D.sockets p = some s → D'.sockets p = flushed s
  others : ∀ b, b ∉ done → D.pairedWith done b = false → D'.sockets b = D.sockets b
  list : D'.localSocketList = D.localSocketList.filter fun b => !D.pairedWith done b
  closing : D'.localSocketClosingList = D.localSocketClosingList ++ done.filterMap D.flushing
  placed : Placed D → Placed D'
  sent : sends D'.trace = sends D.trace

/-- Why the walk may not come to its end: a stream ends the daemon when it is closed, or something
fails that does. -/
def WalkEnds (x : Atransport) (D : Daemon) (e : Stop) : Prop :=
  (∃ r ∈ x.disconnects, ∃ p s, D.sockets p = some s ∧ s.peer = some r ∧
    (e = .exitOnClose p ∧ s.exitOnClose = true ∨ s.ops = .tracker ∧ ∃ u, e = .staleTracker u)) ∨
  IsFatal e ∧ ¬Placed D

lemma Walked.start (h : Graph ∅ D) (hx : D.transports t = some x) :
    Walked t x D [] x.disconnects D := by
  have hno : ∀ b, D.pairedWith [] b = false := by
    intro b
    rw [pairedWith]
    cases D.sockets b with
    | none => rfl
    | some s =>
      rw [Option.any_some]
      cases s.peer with
      | none => rfl
      | some r => simp
  refine ⟨rfl, h, ?_, nofun, ?_, fun _ _ _ => rfl, ?_, (List.append_nil _).symm, id, rfl⟩
  · exact (update_eq_self_iff.mpr hx.symm).symm
  · intro p s hp
    rw [hno] at hp
    cases hp
  · symm
    rw [List.filter_eq_self]
    intro b _
    rw [hno]
    rfl

section Step

variable {done rest : List Addr} {D₁ : Daemon}

/-- The stream of the next record is as it was when the walk began. -/
lemma Walked.stream (hw : Walked t x D done (r :: rest) D₁) (h : Graph ∅ D)
    (hx : D.transports t = some x) : ∃ q p s, Stream D t r q p s ∧ Stream D₁ t r q p s := by
  obtain ⟨hnodup, hrecords⟩ := h.records t _ (disconnectsOf_eq hx)
  obtain ⟨q, hq, hrem, ht⟩ := hrecords r (by rw [hw.split]; simp)
  obtain ⟨p, s, hst⟩ := exists_stream h hq hrem ht
  rw [hw.split] at hnodup
  have hr : r ∉ done := fun hmem => (List.nodup_append.mp hnodup).2.2 r hmem r (by simp) rfl
  have hp : p ∉ done := by
    intro hmem
    obtain ⟨s', hs', hrem', -⟩ := hrecords p (by rw [hw.split]; simp [hmem])
    cases hst.near.symm.trans hs'
    have hlocal := hst.isLocal
    rw [hrem'] at hlocal
    cases hlocal
  have hr₁ : D₁.sockets r = some q := by
    rw [hw.others r hr, hq]
    rw [pairedWith_eq hq hst.peer]
    exact decide_eq_false hp
  have hp₁ : D₁.sockets p = some s := by
    rw [hw.others p hp, hst.near]
    rw [pairedWith_eq hst.near hst.back]
    exact decide_eq_false hr
  exact ⟨q, p, s, hst, hr₁, hrem, ht, hst.peer, hp₁, hst.back, hst.isLocal⟩

/-- One function is called. -/
lemma Walked.step (hw : Walked t x D done (r :: rest) D₁) (h : Graph ∅ D)
    (hst : Stream D t r q p s) (hst₁ : Stream D₁ t r q p s)
    (hd : Detached t { x with disconnects := r :: rest } r p s D₁ D') :
    Walked t x D (done ++ [r]) rest D' := by
  have hpair : ∀ b, D.pairedWith (done ++ [r]) b = (D.pairedWith done b || decide (b = p)) := by
    intro b
    rw [pairedWith_append, hst.pairedWith_single h]
  have hpdone : D.pairedWith done p = false := by
    by_contra hmem
    rw [Bool.not_eq_false] at hmem
    have hflush := hw.near p s hmem hst.near
    rw [hst₁.near, flushed] at hflush
    split at hflush
    · cases hflush
    · rw [Option.some.injEq] at hflush
      have hback := hst.back
      rw [hflush] at hback
      cases hback
  refine ⟨?_, hd.graph, ?_, ?_, ?_, ?_, ?_, ?_, fun hp => hd.placed (hw.placed hp),
    hd.sent.trans hw.sent⟩
  · rw [hw.split, List.append_assoc, List.singleton_append]
  · rw [hd.transports, hw.transports, update_idem, List.erase_cons_head]
  · intro r' hr'
    rw [List.mem_append, List.mem_singleton] at hr'
    rcases hr' with hr' | rfl
    · have hgone := hw.records r' hr'
      rw [hd.others r', hgone]
      · rintro rfl
        cases hgone.symm.trans hst₁.remote
      · rintro rfl
        cases hgone.symm.trans hst₁.near
    · exact hd.record
  · intro p' s' hp' hs'
    rw [hpair, Bool.or_eq_true, decide_eq_true_iff] at hp'
    by_cases heq : p' = p
    · subst heq
      cases hst.near.symm.trans hs'
      exact hd.near
    · have hflush := hw.near p' s' (hp'.resolve_right heq) hs'
      rw [hd.others p' ?_ heq, hflush]
      rintro rfl
      cases hst.remote.symm.trans hs'
      rw [hst₁.remote, flushed] at hflush
      split at hflush
      · cases hflush
      · rw [Option.some.injEq] at hflush
        have hrem := hst.isRemote
        rw [hflush] at hrem
        cases hrem
  · intro b hb hbp
    rw [List.mem_append, List.mem_singleton, not_or] at hb
    rw [hpair, Bool.or_eq_false_iff, decide_eq_false_iff_not] at hbp
    rw [hd.others b hb.2 hbp.2, hw.others b hb.1 hbp.1]
  · rw [hd.list, hw.list, List.Nodup.erase_eq_filter (h.listNodup.filter _), List.filter_filter]
    apply List.filter_congr
    intro b _
    rw [hpair]
    by_cases hb : b = p <;> simp [hb]
  · rw [hd.closing, hw.closing, List.filterMap_append, List.append_assoc]
    congr 2
    rw [List.filterMap_cons, flushing, hst.remote, Option.bind_some, hst.peer, Option.filter_some,
      hasQueue, hst.near, Option.any_some]
    cases s.pkts.isEmpty <;> rfl

end Step

/-- The function of the next record, as far as the walk is concerned. -/
lemma Walked.call {l done : List Addr} {D₁ : Daemon} (hw : Walked t x D done (r :: l) D₁)
    (h : Graph ∅ D) (hx : D.transports t = some x) :
    Outcome (D₁.remoteSocketDisconnect (closeSocket 1) r) (Walked t x D (done ++ [r]) l)
      (WalkEnds x D) := by
  obtain ⟨q, p, s, hst, hst₁⟩ := hw.stream h hx
  have hx₁ : D₁.transports t = some { x with disconnects := r :: l } := by
    rw [hw.transports, update_self]
  refine (remoteSocketDisconnect_outcome hw.graph hst₁ hx₁).imp (fun D' => hw.step h hst hst₁) ?_
  have hr : r ∈ x.disconnects := by
    rw [hw.split]
    simp
  rintro e (hexit | ⟨hfatal, hno⟩ | htracker)
  · exact Or.inl ⟨r, hr, p, s, hst.near, hst.back, Or.inl hexit⟩
  · exact Or.inr ⟨hfatal, fun hplaced => hno (hw.placed hplaced)⟩
  · exact Or.inl ⟨r, hr, p, s, hst.near, hst.back, Or.inr htracker⟩

/-- The functions of the records `l`, one after the other. -/
def callDisconnects (l : List Addr) (D : Daemon) : Except Stop Daemon :=
  l.foldlM (fun D r => D.remoteSocketDisconnect (closeSocket 1) r) D

/-- The walk over any part of the list. -/
lemma Walked.calls {l k done : List Addr} {D₁ : Daemon} (hw : Walked t x D done (l ++ k) D₁)
    (h : Graph ∅ D) (hx : D.transports t = some x) :
    Outcome (D₁.callDisconnects l) (Walked t x D (done ++ l) k) (WalkEnds x D) := by
  have hloop := Outcome.foldlM (I := fun k D' => ∃ done, Walked t x D done k D')
    (E := WalkEnds x D) (f := fun D r => D.remoteSocketDisconnect (closeSocket 1) r)
    (fun r k D₁ ⟨done, hw⟩ => (hw.call h hx).mono fun D' hw' => ⟨done ++ [r], hw'⟩) l k D₁
    ⟨done, hw⟩
  refine Outcome.mono hloop ?_
  rintro D' ⟨done', hw'⟩
  have hsplit : done' ++ k = (done ++ l) ++ k := by
    rw [← hw'.split, hw.split, List.append_assoc]
  rw [← List.append_cancel_right hsplit]
  exact hw'

/-- The loop of the source calls the functions of the records that are left. -/
lemma Walked.runDisconnects {l done : List Addr} {D₁ : Daemon} (hw : Walked t x D done l D₁)
    (h : Graph ∅ D) (hx : D.transports t = some x) :
    D₁.runDisconnects t l.length l.head? = D₁.callDisconnects l := by
  induction l generalizing done D₁ with
  | nil => rfl
  | cons r l ih =>
    have hx₁ : D₁.transports t = some { x with disconnects := r :: l } := by
      rw [hw.transports, update_self]
    have hnext : nextDisconnect r (r :: l) = l.head? := by
      rw [nextDisconnect]
      simp
    rw [List.head?_cons, List.length_cons, Daemon.runDisconnects, derefT_bind hx₁,
      callDisconnects, List.foldlM_cons]
    dsimp only
    rw [hnext]
    cases hcall : D₁.remoteSocketDisconnect (closeSocket 1) r with
    | error e => rfl
    | ok D₂ => exact ih ((hw.call h hx).success hcall)

/-! ## The property -/

/-- The records `l` are the disconnect list of `t`, and the sockets they are in are alive. -/
structure Linked (t : TAddr) (l : List Addr) (D : Daemon) : Prop where
  list : ∃ x, D.transports t = some x ∧ x.disconnects = l
  distinct : l.Nodup
  alive : ∀ r ∈ l, ∃ q, D.sockets r = some q ∧ q.ops = .remote ∧ q.transport = some t

/-- Every stream of `t` is gone or flushes what it has queued, and nothing else has happened to a
socket or a transport. -/
structure Offline (t : TAddr) (x : Atransport) (D D' : Daemon) : Prop where
  graph : Graph ∅ D'
  transports : D'.transports = update D.transports t (some { x with disconnects := [] })
  streams : ∀ r q p s, Stream D t r q p s → D'.sockets r = none ∧ D'.sockets p = flushed s
  others : ∀ b, (∀ r q p s, Stream D t r q p s → b ≠ r ∧ b ≠ p) → D'.sockets b = D.sockets b
  elsewhere : ∀ u r q p s, u ≠ t → Stream D u r q p s → Stream D' u r q p s
  list : D'.localSocketList = D.localSocketList.filter fun b => !D.pairedWith x.disconnects b
  closing : D'.localSocketClosingList =
    D.localSocketClosingList ++ x.disconnects.filterMap D.flushing
  sent : sends D'.trace = sends D.trace

/-- `run_transport_disconnects` of `t`, which is `x`. -/
structure RunsOnce (t : TAddr) (x : Atransport) (D : Daemon) : Prop where
  /-- It calls the function of every record of the list, in its order, up to one that ends the
  daemon. -/
  once : D.runTransportDisconnects t = D.callDisconnects x.disconnects
  linked : Linked t x.disconnects D
  /-- When it has called those of `done`, the record it calls next is the first of the list, and
  once that has been called the one it has saved is. -/
  saved : ∀ done r rest D₁, x.disconnects = done ++ r :: rest →
    D.callDisconnects done = .ok D₁ → Linked t (r :: rest) D₁ ∧
      nextDisconnect r (r :: rest) = rest.head? ∧
      ∀ D₂, D₁.remoteSocketDisconnect (closeSocket 1) r = .ok D₂ → Linked t rest D₂
  ends : Outcome (D.runTransportDisconnects t) (Offline t x D) (WalkEnds x D)

lemma Walked.linked {l done : List Addr} {D₁ : Daemon} (hw : Walked t x D done l D₁) :
    Linked t l D₁ := by
  have hx₁ : D₁.transports t = some { x with disconnects := l } := by
    rw [hw.transports, update_self]
  obtain ⟨hnodup, halive⟩ := hw.graph.records t l (disconnectsOf_eq hx₁)
  exact ⟨⟨_, hx₁, rfl⟩, hnodup, halive⟩

/-- The record of a stream is in the list of its transport. -/
lemma Stream.linked (hst : Stream D t r q p s) (h : Graph ∅ D) (hx : D.transports t = some x) :
    r ∈ x.disconnects := by
  obtain ⟨t', l, ht', hl, hmem⟩ := h.linked r q hst.remote hst.isRemote
  cases hst.transport.symm.trans ht'
  cases (disconnectsOf_eq hx).symm.trans hl
  exact hmem

lemma Walked.offline (hw : Walked t x D x.disconnects [] D') (h : Graph ∅ D)
    (hx : D.transports t = some x) : Offline t x D D' := by
  have hrecords := (h.records t _ (disconnectsOf_eq hx)).2
  have hothers : ∀ b, (∀ r q p s, Stream D t r q p s → b ≠ r ∧ b ≠ p) →
      D'.sockets b = D.sockets b := by
    intro b hb
    apply hw.others b
    · intro hmem
      obtain ⟨q, hq, hrem, ht⟩ := hrecords b hmem
      obtain ⟨p, s, hst⟩ := exists_stream h hq hrem ht
      exact (hb b q p s hst).1 rfl
    · rw [pairedWith]
      cases hs : D.sockets b with
      | none => rfl
      | some s =>
        rw [Option.any_some]
        cases hp : s.peer with
        | none => rfl
        | some r =>
          rw [Option.any_some, decide_eq_false_iff_not]
          intro hmem
          obtain ⟨q, hq, hrem, ht⟩ := hrecords r hmem
          obtain ⟨p, s', hst⟩ := exists_stream h hq hrem ht
          obtain ⟨-, q', hq', hback, -⟩ := h.paired b s r (Set.notMem_empty b) hs hp
          cases hq.symm.trans hq'
          rw [hst.peer, Option.some.injEq] at hback
          exact (hb r q p s' hst).2 hback.symm
  refine ⟨hw.graph, hw.transports, ?_, hothers, ?_, hw.list, hw.closing, hw.sent⟩
  · intro r q p s hst
    have hmem := hst.linked h hx
    refine ⟨hw.records r hmem, hw.near p s ?_ hst.near⟩
    rw [pairedWith_eq hst.near hst.back]
    exact decide_eq_true hmem
  · intro u r q p s hut hst
    -- the two ends of the stream are neither end of a stream of `t`
    have hapart : ∀ r' q' p' s', Stream D t r' q' p' s' → r ≠ r' ∧ p ≠ p' := by
      intro r' q' p' s' hst'
      have hr : r ≠ r' := by
        rintro rfl
        cases hst.remote.symm.trans hst'.remote
        have ht := hst.transport
        rw [hst'.transport, Option.some.injEq] at ht
        exact hut ht.symm
      refine ⟨hr, ?_⟩
      rintro rfl
      cases hst.near.symm.trans hst'.near
      have hback := hst.back
      rw [hst'.back, Option.some.injEq] at hback
      exact hr hback.symm
    have hremote : D'.sockets r = D.sockets r := by
      apply hothers
      intro r' q' p' s' hst'
      refine ⟨(hapart r' q' p' s' hst').1, ?_⟩
      rintro rfl
      cases hst.remote.symm.trans hst'.near
      have hlocal := hst'.isLocal
      rw [hst.isRemote] at hlocal
      cases hlocal
    have hnear : D'.sockets p = D.sockets p := by
      apply hothers
      intro r' q' p' s' hst'
      refine ⟨?_, (hapart r' q' p' s' hst').2⟩
      rintro rfl
      cases hst.near.symm.trans hst'.remote
      have hlocal := hst.isLocal
      rw [hst'.isRemote] at hlocal
      cases hlocal
    exact ⟨hremote.trans hst.remote, hst.isRemote, hst.transport, hst.peer, hnear.trans hst.near,
      hst.back, hst.isLocal⟩

/-- Whatever streams a transport has, `run_transport_disconnects` calls the function of each of
them once, in order, with a saved record that is still there; at the end they are all shut, unless
one of them has ended the daemon. -/
theorem runTransportDisconnects_once (t : TAddr) (x : Atransport) (D : Daemon) (h : Graph ∅ D)
    (hx : D.transports t = some x) : RunsOnce t x D := by
  have hstart := Walked.start h hx
  have honce : D.runTransportDisconnects t = D.callDisconnects x.disconnects := by
    rw [runTransportDisconnects, derefT_bind hx]
    exact hstart.runDisconnects h hx
  refine ⟨honce, hstart.linked, ?_, ?_⟩
  · intro done r rest D₁ hsplit hdone
    have hw : Walked t x D done (r :: rest) D₁ := by
      rw [hsplit] at hstart
      exact (hstart.calls h hx).success hdone
    refine ⟨hw.linked, by rw [nextDisconnect]; simp, fun D₂ hcall => ?_⟩
    exact ((hw.call h hx).success hcall).linked
  · have hwhole : Walked t x D [] (x.disconnects ++ []) D := by
      rw [List.append_nil]
      exact hstart
    rw [honce]
    exact (hwhole.calls h hx).mono fun D' hw => Walked.offline hw h hx

/-- A host opens two streams, the first of them with descriptors `fds`. -/
def openTwo (first : String) (fds : List ℕ) : List Event :=
  PeerLinks.connect 0 10 11 12 ++
    PeerLinks.carry 0 11 (PeerLinks.packetOf aCnxn aVersion 4096 (str "host::" ++ [0])) {} ++
    PeerLinks.carry 0 11 (PeerLinks.packetOf aOpen 7 0 (str first ++ [0])) { fds := fds } ++
    PeerLinks.carry 0 11 (PeerLinks.packetOf aOpen 8 0 (str "shell:" ++ [0])) { fds := [15] }

/-- The theorem in a state with a tracker and a shell. -/
theorem runTransportDisconnects_once_two : ∃ D x, Reachable D ∧ D.transports 0 = some x ∧
    x.disconnects = [1, 3] ∧ RunsOnce 0 x D := by
  obtain ⟨D, hD, hrun⟩ := @exists_reachable (Option (List Addr)) PeerLinks.unlocked
    [3, 4, 6, 7, 8, 9] (fun _ => false) (openTwo "track-jdwp" [])
    (fun D => (D.transports 0).map (·.disconnects)) (some [1, 3]) (by decide +kernel)
  obtain ⟨x, hx, hlist⟩ := Option.map_eq_some_iff.mp hrun
  exact ⟨D, x, hD, hx, hlist, runTransportDisconnects_once 0 x D hD.graph hx⟩

/-- Closing a stream with `exit_on_close` ends the daemon before the second function is called. -/
theorem not_offline_exit : ¬∀ D, Reachable D → ∀ t x, D.transports t = some x →
    ∃ D', D.runTransportDisconnects t = .ok D' ∧ Offline t x D D' := by
  intro hall
  obtain ⟨D, hD, hrun⟩ := @exists_reachable (Bool × Bool) PeerLinks.unlocked
    [3, 4, 6, 7, 8, 9] (fun _ => false) (openTwo "tcpip:5555" [13, 14])
    (fun D => ((D.transports 0).isSome, (D.runTransportDisconnects 0).toOption.isSome))
    (true, false) (by decide +kernel)
  rw [Prod.mk.injEq] at hrun
  obtain ⟨x, hx⟩ := Option.isSome_iff_exists.mp hrun.1
  obtain ⟨D', hD', -⟩ := hall D hD 0 x hx
  rw [hD'] at hrun
  cases hrun.2

end Daemon

end Adbd
