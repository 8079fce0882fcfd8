import Adbd.Effects.Close

/-!
# What closing a socket comes to

`Adbd.Effects.Close` explains every way closing a socket can go, stops included.  Here is what it
comes to, for sockets that are consistent with one another and nothing else: the state after it,
or the reason why the daemon ends instead.  A socket with `exit_on_close` ends it; a call that
fails does so too, and then an `fdevent` was not in `fd_table` where `fdevent_remove` expects it,
or a transport could not take a packet.
-/

namespace Adbd

open Function FlagWord Transition Daemon

/-! ## The packets sent -/

/-- The packets sent so far, latest first. -/
def sends (tr : List Obs) : List (TAddr × Apacket) :=
  tr.filterMap fun
    | .sent t _ p => some (t, p)
    | _ => none

lemma sends_append (os tr : List Obs) : sends (os ++ tr) = sends os ++ sends tr :=
  List.filterMap_append

/-- Giving packets back sends none. -/
lemma sends_puts {os : List Obs} (hos : ∀ o ∈ os, o.isPut = true) : sends os = [] := by
  refine List.filterMap_eq_nil_iff.mpr fun o ho => ?_
  have hput := hos o ho
  cases o <;> first | rfl | cases hput

/-! ## The event loop -/

namespace Loop

variable {κ : Type} [DecidableEq κ] {L : Loop κ} {k j : κ}

/-- The `fdevent` is in `fd_table` under its descriptor, and in the interest list if it
subscribes to something. -/
structure Synced (L : Loop κ) (k : κ) : Prop where
  inside : (L.mem k).fd < L.fdTableMax
  slot : L.fdTable (L.mem k).fd = .fde k
  plain : has (L.mem k).state 0x00f8#16 = false
  watched : has (L.mem k).state fdeEventMask = true → (L.interest (L.mem k).fd).isSome = true

omit [DecidableEq κ] in
/-- Two `fdevent`s in the table have two descriptors. -/
lemma Synced.fd_ne (hk : Synced L k) (hj : Synced L j) (hne : j ≠ k) :
    (L.mem j).fd ≠ (L.mem k).fd := by
  intro heq
  have hslot := hj.slot
  rw [heq, hk.slot, Slot.fde.injEq] at hslot
  exact hne hslot.symm

/-- What an operation on `k` leaves alone. -/
structure Apart (k : κ) (L L' : Loop κ) : Prop where
  mem : ∀ j, j ≠ k → L'.mem j = L.mem j
  synced : ∀ j, j ≠ k → Synced L j → Synced L' j
  inUse : ∀ n, n ≠ (L.mem k).fd → L'.inUse n = L.inUse n
  fd : (L'.mem k).fd = (L.mem k).fd

/-- `fdevent_remove` goes through for an `fdevent` that is in the table, or was never
installed. -/
lemma fdeventRemove_succeeds (h : L.Installed k → Synced L k) :
    ∃ L', L.fdeventRemove k = .ok L' ∧ L'.fdTableMax = L.fdTableMax := by
  rw [fdeventRemove]
  dsimp only
  generalize hP : (if has (L.mem k).state fdePending = true then fdeventPlistRemove k L
    else L) = P
  have hsame : P.mem = L.mem ∧ P.fdTable = L.fdTable ∧ P.fdTableMax = L.fdTableMax := by
    rw [← hP]
    split <;> exact ⟨rfl, rfl, rfl⟩
  obtain ⟨hmem, htable, hmax⟩ := hsame
  rw [hmem]
  by_cases hact : has (L.mem k).state fdeActive = true
  · have hk := h hact
    have hfd : ((P.fdeventDisconnect k).mem k).fd = (L.mem k).fd := by
      rw [← hmem]
      rfl
    have hinside : ¬(P.fdeventDisconnect k).fdTableMax ≤ (L.mem k).fd := by
      show ¬P.fdTableMax ≤ _
      rw [hmax]
      exact Nat.not_le.mpr hk.inside
    have hslot : ¬(P.fdeventDisconnect k).fdTable (L.mem k).fd ≠ .fde k := by
      show ¬P.fdTable _ ≠ _
      rw [htable, not_not]
      exact hk.slot
    rw [if_pos hact, fdeventUnregister, hfd, if_neg hinside, if_neg hslot]
    refine ⟨_, rfl, ?_⟩
    split <;> exact hmax
  · rw [if_neg hact]
    exact ⟨_, rfl, hmax⟩

lemma fdeventRemove_apart (h : L.Installed k → Synced L k) :
    ∃ L', L.fdeventRemove k = .ok L' ∧ Apart k L L' ∧
      (¬L.Installed k → L'.inUse = L.inUse) ∧ (L'.mem k).state = 0#16 := by
  obtain ⟨L', hL', hmax⟩ := fdeventRemove_succeeds h
  have hspec := fdeventRemove_spec hL'
  refine ⟨L', hL', ⟨hspec.mem_other, ?_, hspec.inUse_other, ?_⟩, fun hidle => (hspec.idle hidle).1,
    ?_⟩
  · intro j hj hsync
    have hmem := hspec.mem_other j hj
    by_cases hin : L.Installed k
    · have hne := (h hin).fd_ne hsync hj
      refine ⟨?_, ?_, ?_, ?_⟩
      · rw [hmem, hmax]
        exact hsync.inside
      · rw [hmem, hspec.fdTable_other _ hne]
        exact hsync.slot
      · rw [hmem]
        exact hsync.plain
      · rw [hmem, hspec.interest_other _ hne]
        exact hsync.watched
    · obtain ⟨-, hinterest, htable⟩ := hspec.idle hin
      refine ⟨?_, ?_, ?_, ?_⟩
      · rw [hmem, hmax]
        exact hsync.inside
      · rw [hmem, htable]
        exact hsync.slot
      · rw [hmem]
        exact hsync.plain
      · rw [hmem, hinterest]
        exact hsync.watched
  · rw [hspec.mem_self]
  · rw [hspec.mem_self]

/-- `fdevent_del` goes through: what it takes off was asked for, so the kernel has an entry. -/
lemma fdeventDel_succeeds (h : Synced L k) (ev : BitVec 16) :
    ∃ L', L.fdeventDel k ev = .ok L' ∧
      (has (L'.mem k).state fdeEventMask = true → (L'.interest (L.mem k).fd).isSome = true) := by
  rw [fdeventDel]
  generalize he : ((L.mem k).state &&& fdeEventMask) &&& ~~~(ev &&& fdeEventMask) = e
  have hsub : ∀ m, has e m = true → has (L.mem k).state m = true := by
    intro m hm
    rw [← he] at hm
    exact has_of_has_and (has_of_has_and hm)
  have hmask : e &&& fdeEventMask = e := by
    rw [← he, BitVec.and_assoc, BitVec.and_comm (~~~(ev &&& fdeEventMask)), ← BitVec.and_assoc,
      BitVec.and_assoc (L.mem k).state, BitVec.and_self]
  have hplain : has e 0x00f8#16 = false := by
    rw [← Bool.not_eq_true]
    intro hbad
    have := hsub _ hbad
    rw [h.plain] at this
    cases this
  rw [fdeventSet]
  dsimp only
  rw [hmask]
  by_cases hsame : (L.mem k).state &&& fdeEventMask = e
  · rw [if_pos hsame]
    exact ⟨L, rfl, h.watched⟩
  have hactive : has (L.mem k).state fdeEventMask = true := by
    rw [has_eq_true]
    intro hzero
    apply hsame
    rw [← he, hzero]
    simp
  have hsome := h.watched hactive
  rw [if_neg hsame]
  have hupdate : ∃ M, (if has (L.mem k).state fdeActive = true then L.fdeventUpdate k e
      else .ok L) = .ok M ∧
      (has e fdeEventMask = true → (M.interest (L.mem k).fd).isSome = true) := by
    by_cases hact : has (L.mem k).state fdeActive = true
    · rw [if_pos hact, fdeventUpdate]
      rw [if_pos hactive, if_pos hactive, epollCtl, epollCtl]
      have hin : ((L.setMem k { L.mem k with
          state := (L.mem k).state &&& fdeStateMask ||| e }).interest (L.mem k).fd).isSome = true :=
        hsome
      rw [if_pos hin, if_pos hin]
      by_cases hnz : (epollMask e).nonzero = true
      · rw [if_pos hnz]
        refine ⟨_, rfl, fun _ => ?_⟩
        show (Function.update L.interest (L.mem k).fd _ (L.mem k).fd).isSome = true
        rw [Function.update_self]
        rfl
      · rw [if_neg hnz]
        refine ⟨_, rfl, fun hbits => ?_⟩
        rw [has_eventMask, hplain, Bool.or_false] at hbits
        exact absurd hbits hnz
    · rw [if_neg hact]
      exact ⟨L, rfl, fun _ => hsome⟩
  obtain ⟨M, hM, hwatched⟩ := hupdate
  rw [hM]
  show ∃ L', Except.ok (dropPending k e _) = Except.ok L' ∧ _
  refine ⟨_, rfl, fun hbits => ?_⟩
  obtain ⟨f, l, heq, -, -, -, hlow, -, -⟩ := dropPending_eq k e
    (M.setMem k { M.mem k with state := (M.mem k).state &&& fdeStateMask ||| e })
  rw [heq] at hbits ⊢
  apply hwatched
  have hlow' : f.state &&& fdeEventMask = e &&& fdeEventMask := by
    rw [hlow, setMem_mem_self]
    show ((M.mem k).state &&& fdeStateMask ||| e) &&& fdeEventMask = _
    have hsplice := and_eventMask_splice (M.mem k).state e
    rw [hmask] at hsplice ⊢
    exact hsplice
  rw [← has_congr hlow' (by decide)]
  have hself : ∀ N : Loop κ, ({ N.setMem k f with listPending := l } : Loop κ).mem k = f :=
    fun N => setMem_mem_self ..
  rwa [hself] at hbits

lemma fdeventDel_apart (h : Synced L k) (ev : BitVec 16) :
    ∃ L', L.fdeventDel k ev = .ok L' ∧ Apart k L L' ∧ Synced L' k ∧ L'.inUse = L.inUse := by
  obtain ⟨L', hL', hwatched⟩ := fdeventDel_succeeds h ev
  have hspec : SetSpec k _ L L' := fdeventSet_spec hL'
  refine ⟨L', hL', ⟨hspec.mem_other, ?_, fun n _ => by rw [hspec.inUse], hspec.fd⟩, ?_,
    hspec.inUse⟩
  · intro j hj hsync
    have hmem := hspec.mem_other j hj
    have hne := h.fd_ne hsync hj
    refine ⟨?_, ?_, ?_, ?_⟩
    · rw [hmem, hspec.fdTableMax]
      exact hsync.inside
    · rw [hmem, hspec.fdTable]
      exact hsync.slot
    · rw [hmem]
      exact hsync.plain
    · rw [hmem, hspec.interest_other _ hne]
      exact hsync.watched
  · refine ⟨?_, ?_, ?_, ?_⟩
    · rw [hspec.fd, hspec.fdTableMax]
      exact h.inside
    · rw [hspec.fd, hspec.fdTable]
      exact h.slot
    · rw [has_congr hspec.low (by decide), ← Bool.not_eq_true]
      intro hbad
      have := has_of_has_and (has_of_has_and hbad)
      rw [h.plain] at this
      cases this
    · rw [hspec.fd]
      exact hwatched

end Loop

namespace Daemon

variable {D D' : Daemon} {a r : Addr} {s q : Asocket} {L : Loop FdeId} {t : TAddr} {x : Atransport}
  {n : ℕ} {X : Set Addr}

/-! ## Sending -/

/-- The transport `t`, which is `x`, takes `n` more packets. -/
structure Takes (n : ℕ) (D : Daemon) (t : TAddr) (x : Atransport) : Prop where
  live : D.transports t = some x
  pair : D.holds x.transportSocket (.transportSocket t) = true
  far : D.holds x.fd (.transportFd t) = true
  room : ∀ i < n, D.config.hasRoom (x.toInput.length + i) = true

/-- Something fails that ends the daemon: `epoll_ctl`, a look into `fd_table`, or the write to a
transport socket. -/
def IsFatal : Stop → Prop
  | .fatalFd _ | .epollCtl _ | .cannotEnqueue _ | .queueFull _ | .strayDescriptor _ => True
  | _ => False

lemma writePacket_outcome (hx : D.transports t = some x) (via : Option Addr) (p : Apacket) :
    Outcome (D.writePacket via p t)
      (fun D' => D' = (D.setTransport t { x with toInput := x.toInput ++ [p] }).emit
        (.sent t via p))
      fun e => IsFatal e ∧ ¬Takes 1 D t x := by
  rw [writePacket, derefT_bind hx]
  split
  case isFalse hpair =>
    split
    · exact ⟨trivial, fun h => hpair h.pair⟩
    · exact ⟨trivial, fun h => hpair h.pair⟩
  case isTrue =>
    split
    case isFalse hfar => exact ⟨trivial, fun h => hfar h.far⟩
    case isTrue =>
      split
      case isFalse hroom => exact ⟨trivial, fun h => hroom (h.room 0 Nat.one_pos)⟩
      case isTrue => exact rfl

lemma Takes.mono {m : ℕ} (h : Takes n D t x) (hm : m ≤ n) : Takes m D t x :=
  ⟨h.live, h.pair, h.far, fun i hi => h.room i (Nat.lt_of_lt_of_le hi hm)⟩

/-- A transport takes a packet less after each one, wherever its disconnect list has got to. -/
lemma Takes.next {p : Apacket} {l : List Addr} (h : Takes (n + 1) D t x)
    (hx : D'.transports t =
      some { x with toInput := x.toInput ++ [p], disconnects := l })
    (hholds : ∀ m d, D.holds m d = true → (∀ a, d ≠ .socket a) → D'.holds m d = true)
    (hconfig : D'.config = D.config) :
    Takes n D' t { x with toInput := x.toInput ++ [p], disconnects := l } := by
  refine ⟨hx, hholds _ _ h.pair nofun, hholds _ _ h.far nofun, fun i hi => ?_⟩
  have hroom := h.room (i + 1) (Nat.succ_lt_succ hi)
  rw [hconfig]
  show D.config.hasRoom ((x.toInput ++ [p]).length + i) = true
  rwa [List.length_append, List.length_singleton, Nat.add_assoc, Nat.add_comm 1 i]

/-- A transport that is left alone takes what it took. -/
lemma Takes.keep (h : Takes n D t x) (hx : D'.transports t = some x)
    (hholds : ∀ m d, D.holds m d = true → (∀ a, d ≠ .socket a) → D'.holds m d = true)
    (hconfig : D'.config = D.config) : Takes n D' t x :=
  ⟨hx, hholds _ _ h.pair nofun, hholds _ _ h.far nofun, fun i hi => hconfig ▸ h.room i hi⟩

/-! ## Remote sockets -/

/-- The `A_CLSE` of a remote socket whose peer has let go of it. -/
def closePacket (q : Asocket) (addr : ℕ) : Apacket :=
  stamp { addr := addr, msg := closeMessage q 0 }

/-- The daemon after a remote socket of `t` that had no peer is gone. -/
def remoteClosed (r : Addr) (q : Asocket) (t : TAddr) (x : Atransport) (D : Daemon) : Daemon :=
  { D with
    sockets := update D.sockets r none
    transports := update D.transports t (some { x with
      toInput := x.toInput ++ [closePacket q D.nextPacket]
      disconnects := x.disconnects.erase r })
    nextPacket := D.nextPacket + 1
    trace := .sent t (some r) (closePacket q D.nextPacket) :: D.trace }

/-- `remote_socket_close` of a remote socket whose peer has let go of it. -/
lemma closeSocket_remote_outcome (hr : D.sockets r = some q) (hkind : q.ops = .remote)
    (hpeer : q.peer = none) (ht : q.transport = some t) (hx : D.transports t = some x) (m : ℕ) :
    Outcome (closeSocket (m + 1) r D) (fun D' => D' = remoteClosed r q t x D)
      fun e => IsFatal e ∧ ¬Takes 1 D t x := by
  set D₁ : Daemon := { D with nextPacket := D.nextPacket + 1 } with hD₁
  have hr₁ : D₁.sockets r = some q := hr
  have hsend := writePacket_outcome (D := D₁) hx (some r) (closePacket q D.nextPacket)
  have hrefuse : ¬Takes 1 D₁ t x → ¬Takes 1 D t x :=
    fun h h' => h ⟨h'.live, h'.pair, h'.far, h'.room⟩
  rw [closeSocket, deref_bind hr, hkind]
  show Outcome (D.remoteSocketClose (closeSocket m) r) _ _
  rw [remoteSocketClose, deref_bind hr, hpeer]
  show Outcome (D₁.closePeer (closeSocket m) r >>= _) _ _
  rw [closePeer, deref_bind hr₁, hpeer]
  show Outcome (sendPacket (some r) _ q.transport D₁ >>= _) _ _
  rw [ht]
  show Outcome (writePacket (some r) (closePacket q D.nextPacket) t D₁ >>= _) _ _
  cases hw : writePacket (some r) (closePacket q D.nextPacket) t D₁ with
  | error e =>
    obtain ⟨hfatal, hno⟩ := hsend.stop hw
    exact ⟨hfatal, hrefuse hno⟩
  | ok D₂ =>
    obtain rfl := hsend.success hw
    show Outcome (removeTransportDisconnect (some t) r _ >>= _) _ _
    rw [removeTransportDisconnect]
    have hlive : ((D₁.setTransport t
        { x with toInput := x.toInput ++ [closePacket q D.nextPacket] }).emit
        (.sent t (some r) (closePacket q D.nextPacket))).transports t =
        some { x with toInput := x.toInput ++ [closePacket q D.nextPacket] } := update_self ..
    rw [derefT_bind hlive]
    show freeSocket r _ = _
    simp only [freeSocket, setTransport, emit, update_idem, hD₁, remoteClosed]

/-! ## Smart sockets -/

/-- `sendfailmsg` writes to the descriptor of the socket. -/
lemma sendfailmsg_eq (a : Addr) (reason : String) (D : Daemon) : ∃ ws os, sends os = [] ∧
    D.sendfailmsg a reason =
      { D with io := { D.io with writes := ws }, trace := os ++ D.trace } := by
  rw [sendfailmsg]
  dsimp only [writexTo]
  split
  case h_1 hfirst =>
    rw [Prod.mk.injEq] at hfirst
    rw [← hfirst.2]
    exact ⟨_, [.told a _], rfl, rfl⟩
  case h_2 hfirst =>
    rw [Prod.mk.injEq] at hfirst
    rw [← hfirst.2]
    exact ⟨_, [.told a _, .told a _], rfl, rfl⟩

/-- `smart_socket_close` of a smart socket whose client has been handed over. -/
lemma closeSocket_smart_eq (hs : D.sockets a = some s) (hkind : s.ops = .smart)
    (hpeer : s.peer = none) (m : ℕ) : ∃ os, sends os = [] ∧ closeSocket (m + 1) a D =
      .ok { D with sockets := update D.sockets a none, trace := os ++ D.trace } := by
  obtain ⟨os, hos, hput⟩ := putApackets_eq (s.pkts.take 1) D
  refine ⟨os, sends_puts hos, ?_⟩
  have hlive : (D.putApackets (s.pkts.take 1)).sockets a = some s := by
    rw [hput]
    exact hs
  rw [closeSocket, deref_bind hs, hkind]
  show D.smartSocketClose (closeSocket m) a = _
  rw [smartSocketClose, deref_bind hs]
  show (closePeer (closeSocket m) a _ >>= _) = _
  rw [closePeer, deref_bind hlive, hpeer]
  show Except.ok (freeSocket a _) = _
  rw [hput]
  rfl

/-! ## Sockets with a descriptor -/

/-- The `fdevent` of a socket is where it belongs: in `fd_table`, if the socket has a descriptor,
and nowhere otherwise. -/
structure InPlace (D : Daemon) (a : Addr) (s : Asocket) : Prop where
  synced : s.ops.isFd = true → Loop.Synced D.loop (.socket a) ∧
    D.owner (D.loop.mem (.socket a)).fd = some (.socket a)
  still : s.ops.isFd = false → ¬D.loop.Installed (.socket a)

lemma InPlace.congr {z : Asocket} (h : InPlace D a s) (hops : z.ops = s.ops) : InPlace D a z :=
  ⟨fun hfd => h.synced (hops ▸ hfd), fun hfd => h.still (hops ▸ hfd)⟩

lemma InPlace.installed (h : InPlace D a s) (hin : D.loop.Installed (.socket a)) :
    Loop.Synced D.loop (.socket a) := by
  cases hfd : s.ops.isFd with
  | true => exact (h.synced hfd).1
  | false => exact absurd hin (h.still hfd)

/-- `local_socket_destroy`, as far as `fdevent_remove` goes. -/
lemma localSocketDestroy_of_remove (hs : D.sockets a = some s) :
    Outcome (D.localSocketDestroy a)
      (fun D' => ∃ L os, sends os = [] ∧ D.loop.fdeventRemove (.socket a) = .ok L ∧
        D' = { D with
          loop := L
          sockets := update D.sockets a none
          localSocketList := D.localSocketList.erase a
          localSocketClosingList := D.localSocketClosingList.erase a
          trace := os ++ D.trace })
      fun e => e = .exitOnClose a ∧ s.exitOnClose = true ∨
        D.loop.fdeventRemove (.socket a) = .error e := by
  rw [localSocketDestroy, deref_bind hs, onLoop]
  cases hL : D.loop.fdeventRemove (.socket a) with
  | error e => exact Or.inr rfl
  | ok L =>
    obtain ⟨os, hos, hput⟩ :=
      putApackets_eq s.pkts (({ D with loop := L } : Daemon).emit (.destroyed a s.queued))
    have hlive : (putApackets s.pkts (({ D with loop := L } : Daemon).emit
        (.destroyed a s.queued))).sockets a = some s := by
      rw [hput]
      exact hs
    obtain ⟨i, hremove⟩ := removeSocket_eq hlive
    show Outcome (removeSocket a _ >>= _) _ _
    rw [hremove, hput]
    show Outcome (if s.exitOnClose then _ else _) _ _
    split
    case isTrue hexit => exact Or.inl ⟨rfl, hexit⟩
    case isFalse =>
      refine ⟨L, os ++ [.destroyed a s.queued], ?_, rfl, ?_⟩
      · rw [sends_append, sends_puts hos]
        rfl
      · simp only [freeSocket, setSocket, emit, update_idem, List.append_assoc,
          List.singleton_append]

/-- `local_socket_destroy`. -/
lemma localSocketDestroy_outcome (hs : D.sockets a = some s) :
    Outcome (D.localSocketDestroy a)
      (fun D' => ∃ L os, sends os = [] ∧ D.loop.fdeventRemove (.socket a) = .ok L ∧
        D' = { D with
          loop := L
          sockets := update D.sockets a none
          localSocketList := D.localSocketList.erase a
          localSocketClosingList := D.localSocketClosingList.erase a
          trace := os ++ D.trace })
      fun e => e = .exitOnClose a ∧ s.exitOnClose = true ∨ IsFatal e ∧ ¬InPlace D a s := by
  cases hd : D.localSocketDestroy a with
  | ok D' => exact (localSocketDestroy_of_remove hs).success hd
  | error e =>
    rcases (localSocketDestroy_of_remove hs).stop hd with hexit | hL
    · exact Or.inl hexit
    · obtain ⟨n, rfl⟩ := Loop.fdeventRemove_error hL
      refine Or.inr ⟨trivial, fun hplace => ?_⟩
      obtain ⟨L', hL', -⟩ := Loop.fdeventRemove_succeeds (L := D.loop) (k := .socket a)
        fun hin => hplace.installed hin
      rw [hL] at hL'
      cases hL'

/-- What is left of a listed socket without a peer once it is closed. -/
def remains (s : Asocket) : Option Asocket :=
  if s.closing || s.pkts.isEmpty then none else some { s with closing := true, id := 0 }

lemma remains_ops {z : Asocket} (h : remains s = some z) : z.ops = s.ops := by
  rw [remains] at h
  split at h
  · cases h
  · rw [Option.some.injEq] at h
    rw [← h]

lemma remains_of_empty (h : s.pkts = []) : remains s = none := by
  rw [remains, h]
  exact if_pos (Bool.or_true _)

lemma remains_isSome (hclosing : s.closing = false) :
    (remains s).isSome = !s.pkts.isEmpty := by
  rw [remains, hclosing, Bool.false_or]
  cases s.pkts.isEmpty <;> rfl

/-- What the end of `local_socket_close_locked` does to the event loop. -/
def Lets (a : Addr) (s : Asocket) (L L' : Loop FdeId) : Prop :=
  remains s = none ∧ L.fdeventRemove (.socket a) = .ok L' ∨
  s.ops.isFd = true ∧ L.fdeventDel (.socket a) fdeRead = .ok L'

/-- The end of `local_socket_close_locked`, for a socket in the list. -/
lemma localSocketRetire_outcome (hs : D.sockets a = some s) (ha : a ∈ D.localSocketList)
    (hplain : s.ops.isFd = false → s.pkts = []) :
    Outcome (D.localSocketRetire a)
      (fun D' => ∃ L os, sends os = [] ∧ Lets a s D.loop L ∧ D' = { D with
        loop := L
        sockets := update D.sockets a (remains s)
        localSocketList := D.localSocketList.erase a
        localSocketClosingList := D.localSocketClosingList.erase a ++
          if (remains s).isSome then [a] else []
        trace := os ++ D.trace })
      fun e => e = .exitOnClose a ∧ s.exitOnClose = true ∨ IsFatal e ∧ ¬InPlace D a s := by
  rw [localSocketRetire, deref_bind hs]
  split
  case isTrue hdone =>
    have hnone : remains s = none := if_pos hdone
    refine (localSocketDestroy_outcome hs).mono ?_
    rintro D' ⟨L, os, hos, hL, rfl⟩
    refine ⟨L, os, hos, Or.inl ⟨hnone, hL⟩, ?_⟩
    rw [hnone]
    simp
  case isFalse hdone =>
    have hsome : remains s = some { s with closing := true, id := 0 } := if_neg hdone
    have hfd : s.ops.isFd = true := by
      by_contra hno
      rw [Bool.not_eq_true] at hno
      rw [hplain hno] at hdone
      simp at hdone
    simp only [onLoop, setSocket]
    cases hL : D.loop.fdeventDel (.socket a) fdeRead with
    | error e =>
      obtain ⟨n, rfl⟩ := Loop.fdeventSet_error hL
      refine Or.inr ⟨trivial, fun hplace => ?_⟩
      obtain ⟨L', hL', -⟩ := Loop.fdeventDel_succeeds (hplace.synced hfd).1 fdeRead
      rw [hL] at hL'
      cases hL'
    | ok L =>
      set D₁ : Daemon := { D with
        sockets := update D.sockets a (some { s with closing := true })
        loop := L } with hD₁
      have hlive : D₁.sockets a = some { s with closing := true } := update_self ..
      have hmem : a ∈ D₁.localSocketList ∨ a ∈ D₁.localSocketClosingList := Or.inl ha
      show Outcome (removeSocket a D₁ >>= _) _ _
      rw [removeSocket, deref_bind hlive, if_pos hmem]
      refine ⟨L, [.closing a s.queued], rfl, Or.inr ⟨hfd, hL⟩, ?_⟩
      rw [hsome]
      simp [hD₁, setSocket, emit, update_idem]

lemma Lets.apart (h : InPlace D a s) (hL : Lets a s D.loop L) :
    Loop.Apart (.socket a) D.loop L ∧ (∀ z, remains s = some z → Loop.Synced L (.socket a)) ∧
      (s.ops.isFd = false → L.inUse = D.loop.inUse) := by
  rcases hL with ⟨hnone, hL⟩ | ⟨hfd, hL⟩
  · obtain ⟨L', hL', hapart, hidle, -⟩ := Loop.fdeventRemove_apart (L := D.loop) (k := .socket a)
      fun hin => h.installed hin
    cases hL.symm.trans hL'
    refine ⟨hapart, ?_, fun hno => hidle (h.still hno)⟩
    intro z hz
    rw [hnone] at hz
    cases hz
  · obtain ⟨L', hL', hapart, hsynced, hinUse⟩ := Loop.fdeventDel_apart (h.synced hfd).1 fdeRead
    cases hL.symm.trans hL'
    exact ⟨hapart, fun _ _ => hsynced, fun _ => hinUse⟩

/-- The descriptors of others stay open. -/
lemma Lets.holds (h : InPlace D a s) (hL : Lets a s D.loop L) (hloop : D'.loop = L)
    (howner : D'.owner = D.owner) {m : ℕ} {d : Desc} (hd : d ≠ .socket a)
    (hheld : D.holds m d = true) : D'.holds m d = true := by
  obtain ⟨hapart, -, hidle⟩ := hL.apart h
  rw [Daemon.holds, Bool.and_eq_true, decide_eq_true_iff] at hheld ⊢
  rw [hloop, howner]
  refine ⟨?_, hheld.2⟩
  have hsame : L.inUse m = D.loop.inUse m := by
    cases hfd : s.ops.isFd with
    | false => rw [hidle hfd]
    | true =>
      apply hapart.inUse
      rintro rfl
      rw [(h.synced hfd).2, Option.some.injEq] at hheld
      exact hd hheld.2.symm
  rw [hsame]
  exact hheld.1

/-! ## Daemons in which nothing fails -/

/-- Every `fdevent` of a socket is where it belongs. -/
abbrev Placed (D : Daemon) : Prop := ∀ a s, D.sockets a = some s → InPlace D a s

/-- Closing the socket `a` and letting go of others leaves every `fdevent` where it belongs. -/
lemma Placed.after {z : Asocket} (h : Placed D) (hs : D.sockets a = some s)
    (hops : z.ops = s.ops) (hL : Lets a z D.loop D'.loop) (howner : D'.owner = D.owner)
    (hself : D'.sockets a = remains z) (hfd : D'.sockets a ≠ none → s.ops.isFd = true)
    (hothers : ∀ b q, b ≠ a → D'.sockets b = some q → ∃ q₀, D.sockets b = some q₀ ∧
      q.ops.isFd = q₀.ops.isFd) : Placed D' := by
  have hplace := (h a s hs).congr hops
  obtain ⟨hapart, hsynced, -⟩ := hL.apart hplace
  intro b q hb
  by_cases hba : b = a
  · subst hba
    have hops' : q.ops.isFd = true := by
      rw [remains_ops (hself.symm.trans hb), hops]
      exact hfd (by rw [hb]; nofun)
    refine ⟨fun _ => ⟨hsynced q (hself.symm.trans hb), ?_⟩, fun hno => ?_⟩
    · rw [howner, hapart.fd]
      exact (hplace.synced (remains_ops (hself.symm.trans hb) ▸ hops')).2
    · rw [hops'] at hno
      cases hno
  · have hne : FdeId.socket b ≠ .socket a := fun heq => hba (FdeId.socket.inj heq)
    obtain ⟨q₀, hq₀, hkind⟩ := hothers b q hba hb
    have hold := h b q₀ hq₀
    refine ⟨fun hfd => ⟨hapart.synced _ hne (hold.synced (hkind ▸ hfd)).1, ?_⟩, fun hno => ?_⟩
    · rw [howner, hapart.mem _ hne]
      exact (hold.synced (hkind ▸ hfd)).2
    · rw [Loop.Installed, hapart.mem _ hne]
      exact hold.still (hkind ▸ hno)

/-- An event loop that is left alone. -/
lemma Placed.keep (h : Placed D) (hloop : D'.loop = D.loop) (howner : D'.owner = D.owner)
    (hothers : ∀ b q, D'.sockets b = some q → ∃ q₀, D.sockets b = some q₀ ∧
      q.ops.isFd = q₀.ops.isFd) : Placed D' := by
  intro b q hb
  obtain ⟨q₀, hq₀, hkind⟩ := hothers b q hb
  have hold := h b q₀ hq₀
  refine ⟨fun hfd => ?_, fun hno => ?_⟩
  · rw [hloop, howner]
    exact hold.synced (hkind ▸ hfd)
  · rw [hloop]
    exact hold.still (hkind ▸ hno)

/-- Every `fdevent` of a socket is where it belongs, and the transports of remote sockets take
`n` more packets. -/
structure Good (n : ℕ) (D : Daemon) : Prop where
  place : Placed D
  takes : ∀ r q t x, D.sockets r = some q → q.ops = .remote → q.transport = some t →
    D.transports t = some x → Takes n D t x

lemma Good.mono {m : ℕ} (h : Good n D) (hm : m ≤ n) : Good m D :=
  ⟨h.place, fun r q t x hr hops ht hx => (h.takes r q t x hr hops ht hx).mono hm⟩

/-- Transports are left alone but for at most one packet and the disconnect list. -/
def OneMore (D D' : Daemon) : Prop :=
  ∀ t y, D'.transports t = some y → ∃ x, D.transports t = some x ∧
    (y = x ∨ ∃ p l, y = { x with toInput := x.toInput ++ [p], disconnects := l })

/-- Closing the socket `a` and letting go of others keeps a daemon good, at the price of one
packet. -/
lemma Good.after {z : Asocket} (h : Good (n + 1) D) (hs : D.sockets a = some s)
    (hops : z.ops = s.ops) (hL : Lets a z D.loop D'.loop) (howner : D'.owner = D.owner)
    (hconfig : D'.config = D.config) (hmore : OneMore D D')
    (hself : D'.sockets a = remains z) (hfd : D'.sockets a ≠ none → s.ops.isFd = true)
    (hothers : ∀ b q, b ≠ a → D'.sockets b = some q → D.sockets b = some q) : Good n D' := by
  have hheld : ∀ m d, D.holds m d = true → (∀ b, d ≠ .socket b) → D'.holds m d = true :=
    fun m d hd hne => hL.holds ((h.place a s hs).congr hops) rfl howner (hne a) hd
  refine ⟨h.place.after hs hops hL howner hself hfd ?_, ?_⟩
  · exact fun b q hba hb => ⟨q, hothers b q hba hb, rfl⟩
  · intro r q t y hr hrem ht hy
    have hra : r ≠ a := by
      rintro rfl
      have hlocal := hfd (by rw [hr]; nofun)
      rw [← hops, ← remains_ops (hself.symm.trans hr), hrem] at hlocal
      cases hlocal
    obtain ⟨x, hx, hyx⟩ := hmore t y hy
    have htakes := h.takes r q t x (hothers r q hra hr) hrem ht hx
    rcases hyx with rfl | ⟨p, l, rfl⟩
    · exact (htakes.mono (Nat.le_succ n)).keep hy hheld hconfig
    · exact htakes.next hy hheld hconfig

/-- A daemon whose sockets are of the kinds they were, and nothing else that matters, is as good
as before. -/
lemma Good.quiet (h : Good n D) (hsockets : ∀ b q, D'.sockets b = some q → ∃ z,
      D.sockets b = some z ∧ q.ops.isFd = z.ops.isFd ∧ (q.ops = .remote → z.ops = .remote) ∧
        q.transport = z.transport)
    (hloop : D'.loop = D.loop) (howner : D'.owner = D.owner)
    (htr : D'.transports = D.transports) (hconfig : D'.config = D.config) : Good n D' := by
  refine ⟨h.place.keep hloop howner ?_, ?_⟩
  · intro b q hb
    obtain ⟨z, hz, hfd, -, -⟩ := hsockets b q hb
    exact ⟨z, hz, hfd⟩
  · intro r q t x hr hops ht hx
    obtain ⟨z, hz, -, hrem, hzt⟩ := hsockets r q hr
    apply (h.takes r z t x hz (hrem hops) (hzt ▸ ht) (htr ▸ hx)).keep hx ?_ hconfig
    intro m d hheld _
    rw [Daemon.holds, hloop, howner]
    exact hheld

/-- A packet more on its way to a transport. -/
lemma Good.sends {p : Apacket} {o : Obs} (h : Good (n + 1) D) (hx : D.transports t = some x) :
    Good n ((D.setTransport t { x with toInput := x.toInput ++ [p] }).emit o) := by
  refine ⟨fun b q hb => ⟨(h.place b q hb).synced, (h.place b q hb).still⟩, ?_⟩
  intro r q u y hr hops hu hy
  by_cases hut : u = t
  · subst hut
    have hy' : some y = some { x with toInput := x.toInput ++ [p] } :=
      hy.symm.trans (update_self ..)
    rw [Option.some.injEq] at hy'
    subst hy'
    exact (h.takes r q u x hr hops hu hx).next (update_self ..) (fun _ _ hheld _ => hheld) rfl
  · have hold : D.transports u = some y := (update_of_ne hut ..).symm.trans hy
    exact ((h.takes r q u y hr hops hu hold).mono (Nat.le_succ n)).keep hy
      (fun _ _ hheld _ => hheld) rfl

/-- A socket that no longer waits for some events. -/
lemma Good.del {ev : BitVec 16} (h : Good n D) (hs : D.sockets a = some s)
    (hfd : s.ops.isFd = true) (hL : D.loop.fdeventDel (.socket a) ev = .ok L) :
    Good n { D with loop := L } := by
  obtain ⟨hsynced, howner⟩ := (h.place a s hs).synced hfd
  obtain ⟨L', hL', hapart, hself, hinUse⟩ := Loop.fdeventDel_apart hsynced ev
  cases hL.symm.trans hL'
  refine ⟨?_, ?_⟩
  · intro b q hb
    by_cases hba : b = a
    · subst hba
      cases hs.symm.trans hb
      refine ⟨fun _ => ⟨hself, ?_⟩, fun hno => ?_⟩
      · show D.owner (L.mem (.socket b)).fd = _
        rw [hapart.fd, howner]
      · rw [hfd] at hno
        cases hno
    · have hne : FdeId.socket b ≠ .socket a := fun heq => hba (FdeId.socket.inj heq)
      have hold := h.place b q hb
      refine ⟨fun hq => ⟨hapart.synced _ hne (hold.synced hq).1, ?_⟩, fun hno => ?_⟩
      · show D.owner (L.mem (.socket b)).fd = _
        rw [hapart.mem _ hne]
        exact (hold.synced hq).2
      · show ¬L.Installed _
        rw [Loop.Installed, hapart.mem _ hne]
        exact hold.still hno
  · intro r q t x hr hops ht hx
    apply (h.takes r q t x hr hops ht hx).keep hx ?_ rfl
    intro m d hheld _
    rw [Daemon.holds] at hheld ⊢
    show (L.inUse m && _) = true
    rw [hinUse]
    exact hheld

/-! ## Listed sockets -/

/-- The sockets without the peer of `s`. -/
def withoutPeer (s : Asocket) (S : Addr → Option Asocket) : Addr → Option Asocket :=
  match s.peer with
  | none => S
  | some p => update S p none

lemma withoutPeer_other {S : Addr → Option Asocket} {b : Addr} (hb : s.peer ≠ some b) :
    withoutPeer s S b = S b := by
  rw [withoutPeer]
  cases hp : s.peer with
  | none => rfl
  | some p => exact update_of_ne (fun hbp => hb (hp.trans (congrArg some hbp.symm))) ..

lemma withoutPeer_peer {S : Addr → Option Asocket} {p : Addr} (hp : s.peer = some p) :
    withoutPeer s S p = none := by
  rw [withoutPeer, hp]
  exact update_self ..

/-- The socket graph is in order, the sockets of `X` aside. -/
abbrev Graph (X : Set Addr) (D : Daemon) : Prop :=
  PeerWf X D.sockets D.nextAddr D.localSocketList D.localSocketClosingList
    (disconnectsOf D.transports)

/-- A local socket with a peer is not flushing. -/
lemma Graph.listed_of_peer (h : Graph ∅ D) (hs : D.sockets a = some s) (hpeer : s.peer ≠ none)
    (hlocal : s.ops.isLocal = true) : a ∈ D.localSocketList ∧ s.closing = false := by
  have hopen : s.closing = false := by
    by_contra hclosing
    rw [Bool.not_eq_false] at hclosing
    obtain ⟨s', hs', -, -, hnone⟩ := h.flushing a (h.inClosing a s (Set.notMem_empty a) hs hclosing)
    cases hs.symm.trans hs'
    exact hpeer hnone
  exact ⟨h.inList a s (Set.notMem_empty a) hs hlocal hopen, hopen⟩

/-- An orphan without a peer that is closed. -/
lemma Graph.retired (h : Graph X D) (ha : a ∈ X) (hs : D.sockets a = some s)
    (hpeer : s.peer = none) (hlocal : s.ops.isLocal = true)
    (hplain : s.ops.isFd = false → s.pkts = []) :
    PeerWf (X \ {a}) (update D.sockets a (remains s)) D.nextAddr (D.localSocketList.erase a)
      (D.localSocketClosingList.erase a ++ if (remains s).isSome then [a] else [])
      (disconnectsOf D.transports) := by
  cases hrem : remains s with
  | none =>
    have hfree := (h.unlist ha).free hs ha (fun hops => by
      rw [hops] at hlocal
      cases hlocal) h.listNodup.not_mem_erase h.closingNodup.not_mem_erase
    rw [Option.isSome_none, if_neg Bool.false_ne_true, List.append_nil]
    exact hfree
  | some z =>
    have hfd : s.ops.isFd = true := by
      by_contra hno
      rw [Bool.not_eq_true] at hno
      rw [remains_of_empty (hplain hno)] at hrem
      cases hrem
    have hz : z = { s with closing := true, id := 0 } := by
      rw [remains] at hrem
      split at hrem
      · cases hrem
      · exact (Option.some.inj hrem).symm
    subst hz
    rw [Option.isSome_some, if_pos rfl]
    exact h.retire hs ha hfd rfl hpeer rfl

/-- The peer of the listed socket `a` is gone, and nothing else has happened. -/
structure Widowed (D : Daemon) (a : Addr) (s : Asocket) (D' : Daemon) : Prop where
  sockets : D'.sockets = withoutPeer s D.sockets
  list : D'.localSocketList = D.localSocketList
  closing : D'.localSocketClosingList = D.localSocketClosingList
  loop : D'.loop = D.loop
  owner : D'.owner = D.owner
  config : D'.config = D.config
  more : OneMore D D'
  graph : Graph {a} D'
  /-- A remote peer has sent its `A_CLSE`. -/
  sent : ∀ p q t, s.peer = some p → D.sockets p = some q → q.ops = .remote →
    q.transport = some t → ∃ addr, sends D'.trace = (t, closePacket q addr) :: sends D.trace

lemma pairs_local {k j : SocketOps} (h : k.pairs j = true) (hk : k.isLocal = true) :
    j = .remote ∨ j = .smart := by
  revert h hk
  cases k <;> cases j <;> decide

lemma closePeer_outcome (h : Graph ∅ D) (ha : a ∈ D.localSocketList)
    (hs : D.sockets a = some s) :
    Outcome (D.closePeer (closeSocket 1) a) (Widowed D a s) fun e => IsFatal e ∧ ¬Good 1 D := by
  rw [closePeer, deref_bind hs]
  cases hp : s.peer with
  | none =>
    have hgraph := h.single hs hp
    rw [insert_empty_eq] at hgraph
    refine ⟨by rw [withoutPeer, hp], rfl, rfl, rfl, rfl, rfl, fun t y hy => ⟨y, hy, Or.inl rfl⟩,
      hgraph, ?_⟩
    intro p q t hsome
    rw [hp] at hsome
    cases hsome
  | some p =>
    obtain ⟨-, q, hq, hback, hpairs⟩ := h.paired a s p (Set.notMem_empty a) hs hp
    obtain ⟨s', hs', -, hlocal⟩ := h.listed a ha
    cases hs.symm.trans hs'
    have hne : p ≠ a := by
      rintro rfl
      cases hs.symm.trans hq
      revert hpairs
      cases s.ops <;> decide
    have hgraph := (h.sever hs hp (Set.notMem_empty a)).rewrite hq (by simp)
      { q with peer := none } rfl rfl rfl (Or.inl rfl) rfl
    dsimp only
    rw [deref_bind hq]
    set D₁ : Daemon := D.setSocket p { q with peer := none } with hD₁
    have hlive : D₁.sockets p = some { q with peer := none } := update_self ..
    have hrest : (insert a (insert p ∅) : Set Addr) \ {p} = {a} := by
      ext b
      simp only [Set.mem_sdiff, Set.mem_insert_iff, Set.mem_empty_iff_false, or_false,
        Set.mem_singleton_iff]
      constructor
      · rintro ⟨rfl | rfl, hbp⟩
        · rfl
        · exact absurd rfl hbp
      · rintro rfl
        exact ⟨Or.inl rfl, fun heq => hne heq.symm⟩
    have hsockets : update D₁.sockets p none = withoutPeer s D.sockets := by
      rw [withoutPeer, hp, hD₁]
      exact update_idem ..
    rcases pairs_local hpairs hlocal with hops | hops
    · obtain ⟨t, l, ht, hl, hmem⟩ := h.linked p q hq hops
      obtain ⟨x, hx, rfl⟩ := Option.map_eq_some_iff.mp hl
      have hclose := closeSocket_remote_outcome hlive hops rfl ht (x := x) hx 0
      cases hc : closeSocket 1 p D₁ with
      | error e =>
        obtain ⟨hfatal, hno⟩ := hclose.stop hc
        refine ⟨hfatal, fun hgood => hno ?_⟩
        have htakes := hgood.takes p q t x hq hops ht hx
        exact ⟨htakes.live, htakes.pair, htakes.far, htakes.room⟩
      | ok D₂ =>
        obtain rfl := hclose.success hc
        have hdrop := hgraph.dropRemote (update_self ..) (by simp) hops ht hl
        rw [hrest] at hdrop
        refine ⟨hsockets, rfl, rfl, rfl, rfl, rfl, ?_, ?_, ?_⟩
        · intro u y hy
          by_cases hut : u = t
          · subst hut
            have hy' : some y = _ := hy.symm.trans (update_self ..)
            rw [Option.some.injEq] at hy'
            exact ⟨x, hx, Or.inr ⟨_, _, hy'⟩⟩
          · exact ⟨y, (update_of_ne hut ..).symm.trans hy, Or.inl rfl⟩
        · show PeerWf {a} (update D₁.sockets p none) D.nextAddr D.localSocketList
            D.localSocketClosingList (disconnectsOf (update D.transports t (some _)))
          rw [disconnectsOf_update]
          exact hdrop
        · intro p' q' t' hp' hq' hops' ht'
          cases hp.symm.trans hp'
          cases hq.symm.trans hq'
          cases ht.symm.trans ht'
          exact ⟨_, rfl⟩
    · obtain ⟨os, hos, hc⟩ := closeSocket_smart_eq hlive hops rfl 0
      rw [hc]
      have hpl : p ∉ D.localSocketList := by
        intro hmem
        obtain ⟨q', hq', -, hl⟩ := h.listed p hmem
        cases hq.symm.trans hq'
        rw [hops] at hl
        cases hl
      have hpc : p ∉ D.localSocketClosingList := by
        intro hmem
        obtain ⟨q', hq', -, hl, -⟩ := h.flushing p hmem
        cases hq.symm.trans hq'
        rw [hops] at hl
        cases hl
      have hfree := hgraph.free (update_self ..) (by simp) (by simp [hops]) hpl hpc
      rw [hrest] at hfree
      refine ⟨hsockets, rfl, rfl, rfl, rfl, rfl, fun t y hy => ⟨y, hy, Or.inl rfl⟩, hfree, ?_⟩
      intro p' q' t' hp' hq' hops'
      cases hp.symm.trans hp'
      cases hq.symm.trans hq'
      rw [hops] at hops'
      cases hops'

/-- The listed socket `a` is closed. -/
structure LocalClosed (D : Daemon) (a : Addr) (s : Asocket) (D' : Daemon) : Prop where
  self : D'.sockets a = remains { s with peer := none }
  peer : ∀ p, s.peer = some p → D'.sockets p = none
  others : ∀ b, b ≠ a → s.peer ≠ some b → D'.sockets b = D.sockets b
  list : D'.localSocketList = D.localSocketList.erase a
  closing : D'.localSocketClosingList =
    D.localSocketClosingList ++ if s.pkts.isEmpty then [] else [a]
  graph : Graph ∅ D'
  good : ∀ n, Good (n + 1) D → Good n D'
  sent : ∀ p q t, s.peer = some p → D.sockets p = some q → q.ops = .remote →
    q.transport = some t → ∃ addr, sends D'.trace = (t, closePacket q addr) :: sends D.trace

/-- `local_socket_close_locked` of a socket in the list. -/
lemma localSocketCloseLocked_outcome (h : Graph ∅ D) (ha : a ∈ D.localSocketList)
    (hs : D.sockets a = some s) :
    Outcome (D.localSocketCloseLocked (closeSocket 1) a) (LocalClosed D a s) fun e =>
      e = .exitOnClose a ∧ s.exitOnClose = true ∨ IsFatal e ∧ ¬Good 1 D := by
  obtain ⟨s', hs', hclosing, hlocal⟩ := h.listed a ha
  cases hs.symm.trans hs'
  have hself : s.peer ≠ some a := by
    intro hp
    obtain ⟨-, q, hq, -, hpairs⟩ := h.paired a s a (Set.notMem_empty a) hs hp
    cases hs.symm.trans hq
    revert hpairs
    cases s.ops <;> decide
  have hplain : s.ops.isFd = false → s.pkts = [] := by
    intro hfd
    apply h.plain a s hs
    revert hfd hlocal
    cases s.ops <;> simp [SocketOps.isFd, SocketOps.isLocal]
  rw [localSocketCloseLocked]
  cases hc : D.closePeer (closeSocket 1) a with
  | error e => exact Or.inr ((closePeer_outcome h ha hs).stop hc)
  | ok D₁ =>
    have hw := (closePeer_outcome h ha hs).success hc
    have hothers : ∀ b, s.peer ≠ some b → D₁.sockets b = D.sockets b := by
      intro b hb
      rw [hw.sockets]
      exact withoutPeer_other hb
    have hgone : ∀ p, s.peer = some p → D₁.sockets p = none := by
      intro p hp
      rw [hw.sockets]
      exact withoutPeer_peer hp
    have hs₁ : D₁.sockets a = some s := (hothers a hself).trans hs
    show Outcome (D₁.deref a >>= _) _ _
    rw [deref_bind hs₁]
    set z : Asocket := { s with peer := none } with hz
    set D₂ : Daemon := D₁.setSocket a z with hD₂
    have hz₂ : D₂.sockets a = some z := update_self ..
    have ha₂ : a ∈ D₂.localSocketList := by
      rw [hD₂]
      exact hw.list ▸ ha
    have hgraph : Graph {a} D₂ :=
      hw.graph.rewrite hs₁ (Set.mem_singleton a) z rfl rfl rfl (Or.inl rfl) rfl
    have hretire := localSocketRetire_outcome hz₂ ha₂ hplain
    cases hr : D₂.localSocketRetire a with
    | error e =>
      rcases hretire.stop hr with hexit | ⟨hfatal, hno⟩
      · exact Or.inl hexit
      · refine Or.inr ⟨hfatal, fun hgood => hno ?_⟩
        have hplace := hgood.place a s hs
        refine ⟨fun hfd => ?_, fun hfd => ?_⟩
        · show Loop.Synced D₁.loop _ ∧ D₁.owner (D₁.loop.mem _).fd = _
          rw [hw.loop, hw.owner]
          exact hplace.synced hfd
        · show ¬D₁.loop.Installed _
          rw [hw.loop]
          exact hplace.still hfd
    | ok D₃ =>
      obtain ⟨L, os, hos, hL, rfl⟩ := hretire.success hr
      have hloop : Lets a z D.loop L := by
        rw [← hw.loop]
        exact hL
      have hold : ∀ b, b ≠ a → s.peer ≠ some b →
          update D₂.sockets a (remains z) b = D.sockets b := by
        intro b hba hbp
        rw [update_of_ne hba]
        exact (update_of_ne hba ..).trans (hothers b hbp)
      have hpeer : ∀ p, s.peer = some p → update D₂.sockets a (remains z) p = none := by
        intro p hp
        have hpa : p ≠ a := fun heq => hself (heq ▸ hp)
        rw [update_of_ne hpa]
        exact (update_of_ne hpa ..).trans (hgone p hp)
      refine ⟨update_self .., hpeer, hold, ?_, ?_, ?_, ?_, ?_⟩
      · show D₁.localSocketList.erase a = _
        rw [hw.list]
      · show D₁.localSocketClosingList.erase a ++ (if (remains z).isSome then [a] else []) = _
        have hnot : a ∉ D.localSocketClosingList := by
          intro hmem
          obtain ⟨s', hs', hc', -⟩ := h.flushing a hmem
          cases hs.symm.trans hs'
          rw [hclosing] at hc'
          cases hc'
        rw [hw.closing, List.erase_of_not_mem hnot, remains_isSome (s := z) hclosing]
        cases s.pkts <;> rfl
      · have hempty : ({a} : Set Addr) \ {a} = ∅ := Set.sdiff_self
        have hgone := hgraph.retired (Set.mem_singleton a) hz₂ rfl hlocal hplain
        rw [hempty] at hgone
        exact hgone
      · intro n hgood
        refine hgood.after (z := z) hs rfl hloop hw.owner hw.config hw.more (update_self ..) ?_ ?_
        · intro hne
          by_contra hno
          rw [Bool.not_eq_true] at hno
          apply hne
          show update D₂.sockets a (remains z) a = none
          rw [update_self, remains_of_empty (s := z) (hplain hno)]
        · intro b q hba hb
          by_cases hbp : s.peer = some b
          · cases (hpeer b hbp).symm.trans hb
          · exact (hold b hba hbp).symm.trans hb
      · intro p q t hp hq hops ht
        obtain ⟨addr, haddr⟩ := hw.sent p q t hp hq hops ht
        refine ⟨addr, ?_⟩
        show sends (os ++ D₁.trace) = _
        rw [sends_append, hos, haddr]
        rfl

/-- `s->close(s)` of a listed socket with a descriptor; one that still waits for its stream says so
to its descriptor. -/
lemma closeFd_outcome (h : Graph ∅ D) (ha : a ∈ D.localSocketList) (hs : D.sockets a = some s)
    (hfd : s.ops.isFd = true) :
    Outcome (D.close a) (LocalClosed D a { s with ops := .fd }) fun e =>
      e = .exitOnClose a ∧ s.exitOnClose = true ∨ IsFatal e ∧ ¬Good 1 D := by
  rw [close, closeSocket, deref_bind hs]
  cases hops : s.ops with
  | fd =>
    have hsame : ({ s with ops := .fd } : Asocket) = s := by rw [← hops]
    rw [hsame]
    exact localSocketCloseLocked_outcome h ha hs
  | fdNotify =>
    obtain ⟨ws, os, hos, htold⟩ := sendfailmsg_eq a "closed" (D.setSocket a { s with ops := .fd })
    show Outcome (D.localSocketCloseNotify (closeSocket 1) a) _ _
    rw [localSocketCloseNotify, deref_bind hs]
    show Outcome (localSocketCloseLocked (closeSocket 1) a (sendfailmsg a "closed" _)) _ _
    rw [htold]
    set D₁ : Daemon := { D.setSocket a { s with ops := .fd } with
      io := { D.io with writes := ws }, trace := os ++ D.trace } with hD₁
    have hgraph : Graph ∅ D₁ := h.data hs _ (Or.inr ⟨hops, rfl⟩) rfl rfl rfl (Or.inl rfl)
    have hlive : D₁.sockets a = some { s with ops := .fd } := update_self ..
    have hgood : ∀ n, Good n D → Good n D₁ := by
      intro n hgood
      refine hgood.quiet ?_ rfl rfl rfl rfl
      intro b q hb
      by_cases hba : b = a
      · subst hba
        cases hlive.symm.trans hb
        exact ⟨s, hs, by rw [hops]; rfl, by simp, rfl⟩
      · exact ⟨q, (update_of_ne hba ..).symm.trans hb, rfl, id, rfl⟩
    refine Outcome.imp (localSocketCloseLocked_outcome hgraph ha hlive) ?_ ?_
    · intro D' hc
      refine ⟨hc.self, hc.peer, ?_, hc.list, hc.closing, hc.graph,
        fun n hn => hc.good n (hgood _ hn), ?_⟩
      · intro b hba hbp
        rw [hc.others b hba hbp]
        exact update_of_ne hba ..
      · intro p q t hp hq hrem ht
        have hpa : p ≠ a := by
          rintro rfl
          cases hs.symm.trans hq
          rw [hops] at hrem
          cases hrem
        obtain ⟨addr, haddr⟩ := hc.sent p q t hp ((update_of_ne hpa ..).trans hq) hrem ht
        refine ⟨addr, haddr.trans ?_⟩
        show _ :: Adbd.sends (os ++ D.trace) = _
        rw [sends_append, hos, List.nil_append]
    · rintro e (hexit | ⟨hfatal, hno⟩)
      · exact Or.inl hexit
      · exact Or.inr ⟨hfatal, fun hn => hno (hgood 1 hn)⟩
  | _ =>
    rw [hops] at hfd
    cases hfd

end Daemon

end Adbd
