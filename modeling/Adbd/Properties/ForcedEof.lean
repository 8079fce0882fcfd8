import Adbd.Effects.Closing
import Adbd.Properties.PeerLinks

/-!
# Forced ends of file

When the shell of a stream exits, `fdevent_subproc_event_func` sets `force_eof` in the `fdevent`
of the stream's descriptor, so that the next read that finds nothing closes the stream even
though a background process holds the other end of the pty.  `local_socket_event_func` tests
`force_eof` together with `!r`, but a read that finds nothing has left -1 in `r`.
-/

namespace Adbd.ForcedEof

open Function FlagWord Syscall Transition Daemon

variable {D D' : Daemon} {a r : Addr} {s q : Asocket} {t : TAddr} {ev : BitVec 16}
  {rs : List ReadResult}

/-! ## The reads -/

/-- The first read that is not interrupted says `EAGAIN`. -/
def blocked : List ReadResult → Bool
  | .intr :: rs => blocked rs
  | .again :: _ => true
  | [] => true
  | _ => false

/-- Where the first read says `EAGAIN`, nothing is read, and there is no end of file. -/
lemma readLoop_blocked (h : blocked rs = true) :
    (readLoop maxPayload rs).1 = [] ∧ (readLoop maxPayload rs).2.1 = false := by
  obtain ⟨n, hn⟩ : ∃ n, maxPayload = n + 1 := ⟨_, rfl⟩
  rw [hn]
  induction rs with
  | nil => exact ⟨rfl, rfl⟩
  | cons x rs ih =>
    cases x with
    | data bs => cases h
    | intr => exact ih h
    | again => exact ⟨rfl, rfl⟩
    | fail => cases h

/-- Elsewhere nothing is read at an end of file, or an error, only. -/
lemma readLoop_open (h : blocked rs = false) (hnil : (readLoop maxPayload rs).1 = []) :
    (readLoop maxPayload rs).2.1 = true := by
  obtain ⟨n, hn⟩ : ∃ n, maxPayload = n + 1 := ⟨_, rfl⟩
  rw [hn] at hnil ⊢
  induction rs with
  | nil => cases h
  | cons x rs ih =>
    cases x with
    | data bs =>
      rw [readLoop] at hnil ⊢
      split
      case isTrue => rfl
      case isFalse hbs =>
        rw [if_neg hbs] at hnil
        split at hnil
        · exact absurd (List.append_eq_nil_iff.mp hnil).1 hbs
        · rw [List.take_eq_nil_iff] at hnil
          exact absurd (hnil.resolve_left (Nat.succ_ne_zero n)) hbs
    | intr => exact ih h hnil
    | again => cases h
    | fail => rfl

/-! ## The property -/

/-- `a` and the remote socket `r` of `t` are a stream, and its shell has exited. -/
structure Exited (D : Daemon) (a : Addr) (s : Asocket) (r : Addr) (q : Asocket) (t : TAddr) :
    Prop where
  graph : Graph ∅ D
  near : D.sockets a = some s
  isFd : s.ops.isFd = true
  peer : s.peer = some r
  remote : D.sockets r = some q
  isRemote : q.ops = .remote
  transport : q.transport = some t
  forceEof : (D.loop.mem (.socket a)).forceEof = true

/-- The callback gets to its `FDE_READ` branch, in the state `D'`. -/
def Reads (ev : BitVec 16) (a : Addr) (D D' : Daemon) : Prop :=
  has ev fdeRead = true ∧
    (if has ev fdeWrite then D.localSocketWritable a else pure (true, D)) = .ok (true, D')

/-- The stream is closed: `a` is gone, or flushes what is queued, and the `A_CLSE` for the host
follows `before`. -/
structure Closed (a r : Addr) (q : Asocket) (t : TAddr) (before : List (TAddr × Apacket))
    (D : Daemon) : Prop where
  near : ∀ z, D.sockets a = some z → z.closing = true ∧ z.peer = none
  unlisted : a ∉ D.localSocketList
  remote : D.sockets r = none
  told : ∃ addr, sends D.trace = (t, closePacket q addr) :: before

/-- The packet carries `bytes` from `s` to the host. -/
def Carries (s q : Asocket) (bytes : List UInt8) (p : Apacket) : Prop :=
  p.msg.command = aWrte ∧ p.msg.arg0 = s.id ∧ p.msg.arg1 = q.id ∧ p.payload = bytes

/-- What the callback has to come to, `D` being the state in which it begins to read: where
nothing can be read it closes the stream, and otherwise it sends first what it has read. -/
def Ends (a r : Addr) (s q : Asocket) (t : TAddr) (D D' : Daemon) : Prop :=
  if (readLoop maxPayload D.io.reads).1 = [] then Closed a r q t (sends D.trace) D'
  else ∃ p, Carries s q (readLoop maxPayload D.io.reads).1 p ∧
    (sends D'.trace = (t, p) :: sends D.trace ∨ Closed a r q t ((t, p) :: sends D.trace) D')

/-- The property of one callback.  A socket with `exit_on_close` ends the daemon when it is
closed, as a failing call does. -/
def Forces (ev : BitVec 16) (a r : Addr) (s q : Asocket) (t : TAddr) (D₀ D : Daemon) : Prop :=
  Outcome (D₀.localSocketEventFunc ev a) (Ends a r s q t D) fun e =>
    e = .exitOnClose a ∧ s.exitOnClose = true ∨ IsFatal e ∧ ¬Good 2 D

/-! ## Up to the reads -/

lemma Exited.ne (h : Exited D a s r q t) : r ≠ a := by
  rintro rfl
  cases h.near.symm.trans h.remote
  have hfd := h.isFd
  rw [h.isRemote] at hfd
  cases hfd

lemma Exited.back (h : Exited D a s r q t) : q.peer = some a := by
  obtain ⟨-, q', hq', hback, -⟩ := h.graph.paired a s r (Set.notMem_empty a) h.near h.peer
  cases h.remote.symm.trans hq'
  exact hback

lemma Exited.listed (h : Exited D a s r q t) : a ∈ D.localSocketList ∧ s.closing = false := by
  apply h.graph.listed_of_peer h.near
  · rw [h.peer]
    nofun
  · have hfd := h.isFd
    revert hfd
    cases s.ops <;> simp [SocketOps.isFd, SocketOps.isLocal]

lemma Exited.live (h : Exited D a s r q t) : ∃ x, D.transports t = some x := by
  obtain ⟨t', l, ht', hl, -⟩ := h.graph.linked r q h.remote h.isRemote
  cases h.transport.symm.trans ht'
  obtain ⟨x, hx, -⟩ := Option.map_eq_some_iff.mp hl
  exact ⟨x, hx⟩

/-- The stream is left alone, up to what is queued at `a`. -/
lemma Exited.congr (h : Exited D a s r q t) (ps : List Apacket)
    (hsockets : D'.sockets = update D.sockets a (some { s with pkts := ps }))
    (hnext : D'.nextAddr = D.nextAddr) (hlist : D'.localSocketList = D.localSocketList)
    (hclosing : D'.localSocketClosingList = D.localSocketClosingList)
    (htr : disconnectsOf D'.transports = disconnectsOf D.transports)
    (heof : (D'.loop.mem (.socket a)).forceEof = (D.loop.mem (.socket a)).forceEof) :
    Exited D' a { s with pkts := ps } r q t := by
  refine ⟨?_, ?_, h.isFd, h.peer, ?_, h.isRemote, h.transport, heof.trans h.forceEof⟩
  · rw [Daemon.Graph, hsockets, hnext, hlist, hclosing, htr]
    exact h.graph.data h.near _ (Or.inl rfl) rfl rfl rfl (Or.inr (Or.inl h.isFd))
  · rw [hsockets, update_self]
  · rw [hsockets, update_of_ne h.ne]
    exact h.remote

/-- The `FDE_WRITE` branch, where it goes on to the next one. -/
lemma localSocketWritable_more (h : Exited D a s r q t)
    (hw : D.localSocketWritable a = .ok (true, D')) :
    Exited D' a { s with pkts := [] } r q t ∧ D'.io.reads = D.io.reads := by
  rw [localSocketWritable, deref_bind h.near] at hw
  have hempty := (drain_spec s.pkts D.io.writes).2
  generalize drain s.pkts D.io.writes = d at hw hempty
  dsimp only at hw
  obtain ⟨os, -, hput⟩ := putApackets_eq d.freed
    (({ D.setSocket a { s with pkts := d.pkts } with
      io := { D.io with writes := d.writes } } : Daemon).emit (.wrote a d.written))
  rw [hput] at hw
  cases hended : d.ended with
  | again =>
    rw [hended] at hw
    cases hw
  | failed =>
    rw [hended] at hw
    obtain ⟨D₁, -, hD₁⟩ := bind_eq_ok_iff.mp hw
    cases hD₁
  | done =>
    rw [hended] at hw
    dsimp only at hw
    have hopen : ¬s.closing = true := by
      rw [h.listed.2]
      exact Bool.false_ne_true
    rw [if_neg hopen, onLoop] at hw
    obtain ⟨D₁, hdel, hw⟩ := bind_eq_ok_iff.mp hw
    obtain ⟨L, hL, hD₁⟩ := bind_eq_ok_iff.mp hdel
    cases hD₁
    have hpeer : peerOf a s = .ok r := by rw [peerOf, h.peer]
    obtain ⟨p, hp, hw⟩ := bind_eq_ok_iff.mp hw
    cases hpeer.symm.trans hp
    obtain ⟨D₃, hready, hD₃⟩ := bind_eq_ok_iff.mp hw
    cases hD₃
    have hspec : Loop.SetSpec _ _ D.loop L := Loop.fdeventSet_spec hL
    set D₂ : Daemon := { D with
      sockets := update D.sockets a (some { s with pkts := d.pkts })
      loop := L
      io := { D.io with writes := d.writes }
      trace := os ++ .wrote a d.written :: D.trace } with hD₂
    change D₂.ready r = _ at hready
    have hr : D₂.sockets r = some q := by
      rw [hD₂]
      exact (update_of_ne h.ne ..).trans h.remote
    have ha : D₂.sockets a = some { s with pkts := d.pkts } := update_self ..
    obtain ⟨x, hx⟩ := h.live
    have hx₂ : D₂.transports t = some x := hx
    rw [ready, deref_bind hr, h.isRemote] at hready
    change D₂.remoteSocketReady r = _ at hready
    rw [remoteSocketReady, deref_bind hr, peerOf, h.back] at hready
    change (D₂.deref a >>= _) = _ at hready
    rw [deref_bind ha, sendMsg, h.transport] at hready
    obtain rfl := (writePacket_outcome (D := D₂.getApacket.2) hx₂ _ _).success hready
    rw [← hempty.mp hended]
    refine ⟨h.congr d.pkts rfl rfl rfl rfl ?_ hspec.forceEof, rfl⟩
    exact disconnectsOf_assign hx rfl

/-- The stream is still there when the callback begins to read. -/
lemma Reads.exited (hreads : Reads ev a D D') (h : Exited D a s r q t) :
    (∃ ps, Exited D' a { s with pkts := ps } r q t) ∧ D'.io.reads = D.io.reads ∧
      D.localSocketEventFunc ev a = D'.localSocketReadable a := by
  obtain ⟨hread, hwrite⟩ := hreads
  have hrun : D.localSocketEventFunc ev a = D'.localSocketReadable a := by
    rw [localSocketEventFunc, hwrite]
    show (if true && has ev fdeRead then _ else _) = _
    rw [hread]
    rfl
  cases hev : has ev fdeWrite with
  | true =>
    rw [hev, if_pos rfl] at hwrite
    obtain ⟨hD', hio⟩ := localSocketWritable_more h hwrite
    exact ⟨⟨[], hD'⟩, hio, hrun⟩
  | false =>
    rw [hev, if_neg Bool.false_ne_true] at hwrite
    cases hwrite
    exact ⟨⟨s.pkts, h⟩, rfl, hrun⟩

/-! ## The reads and after -/

/-- The state after the reads. -/
def afterReads (a : Addr) (bytes : List UInt8) (rs : List ReadResult) (D : Daemon) : Daemon :=
  { D.getApacket.2 with io := { D.io with reads := rs } }.emit (.read a bytes)

lemma localSocketReadable_eq (h : Exited D a s r q t) {bytes : List UInt8} {eof : Bool}
    (hread : readLoop maxPayload D.io.reads = (bytes, eof, rs)) :
    D.localSocketReadable a =
      if bytes = [] then
        if eof then ((afterReads a bytes rs D).putApacket D.getApacket.1).close a
        else pure ((afterReads a bytes rs D).putApacket D.getApacket.1)
      else (afterReads a bytes rs D).enqueue r
          { D.getApacket.1 with len := bytes.length, data := bytes } >>= fun (w, D) =>
        if w < 0 then pure D
        else (if w = 0 then pure D else D.onLoop (Loop.fdeventDel (.socket a) fdeRead)) >>= fun D =>
          if ((D.loop.mem (.socket a)).forceEof && w = 0) || eof then D.close a else pure D := by
  rw [localSocketReadable]
  change readLoop maxPayload D.getApacket.2.io.reads = _ at hread
  dsimp only
  rw [hread]
  dsimp only
  have hlive : (afterReads a bytes rs D).sockets a = some s := h.near
  show ((afterReads a bytes rs D).deref a >>= _) = _
  rw [deref_bind hlive, h.peer]
  rfl

/-- The callback that finds nothing and no end of file leaves the stream open. -/
lemma localSocketReadable_blocked (h : Exited D a s r q t) (hb : blocked D.io.reads = true) :
    ∃ D', D.localSocketReadable a = .ok D' ∧ D'.sockets = D.sockets := by
  obtain ⟨hbytes, heof⟩ := readLoop_blocked hb
  rcases hread : readLoop maxPayload D.io.reads with ⟨bytes, eof, rs⟩
  rw [hread] at hbytes heof
  rw [localSocketReadable_eq h hread, if_pos hbytes]
  dsimp only at heof
  rw [heof, if_neg Bool.false_ne_true]
  exact ⟨_, rfl, rfl⟩

/-- Closing the stream. -/
lemma Exited.closed (h : Exited D a s r q t) (hc : LocalClosed D a { s with ops := .fd } D') :
    Closed a r q t (sends D.trace) D' := by
  refine ⟨?_, ?_, hc.peer r h.peer, hc.sent r q t h.peer h.remote h.isRemote h.transport⟩
  · intro z hz
    rw [hc.self, remains] at hz
    split at hz
    · cases hz
    · rw [Option.some.injEq] at hz
      rw [← hz]
      exact ⟨rfl, rfl⟩
  · rw [hc.list]
    exact h.graph.listNodup.not_mem_erase

lemma Exited.close (h : Exited D a s r q t) :
    Outcome (D.close a) (Closed a r q t (sends D.trace)) fun e =>
      e = .exitOnClose a ∧ s.exitOnClose = true ∨ IsFatal e ∧ ¬Good 1 D :=
  (closeFd_outcome h.graph h.listed.1 h.near h.isFd).mono fun _ hc => h.closed hc

/-- The bytes on their way to the host. -/
structure Sent (s q : Asocket) (t : TAddr) (bytes : List UInt8) (D D' : Daemon) : Prop where
  sockets : D'.sockets = D.sockets
  nextAddr : D'.nextAddr = D.nextAddr
  list : D'.localSocketList = D.localSocketList
  closing : D'.localSocketClosingList = D.localSocketClosingList
  loop : D'.loop = D.loop
  disconnects : disconnectsOf D'.transports = disconnectsOf D.transports
  good : ∀ n, Good (n + 1) D → Good n D'
  sent : ∃ p, Carries s q bytes p ∧ sends D'.trace = (t, p) :: sends D.trace

/-- `remote_socket_enqueue` sends the packet, and asks to wait. -/
lemma enqueue_sent {bytes : List UInt8} (h : Exited D a s r q t)
    (hlen : bytes.length ≤ maxPayload) (addr : ℕ) :
    Outcome (D.enqueue r { addr := addr, len := bytes.length, data := bytes })
      (fun res => res.1 = 1 ∧ Sent s q t bytes D res.2) fun e => IsFatal e ∧ ¬Good 1 D := by
  obtain ⟨x, hx⟩ := h.live
  have hpeer : peerOf r q = .ok a := by rw [peerOf, h.back]
  rw [enqueue, deref_bind h.remote, h.isRemote]
  show Outcome (D.remoteSocketEnqueue r _) _ _
  rw [remoteSocketEnqueue, deref_bind h.remote, hpeer]
  show Outcome (D.deref a >>= _) _ _
  rw [deref_bind h.near, h.transport]
  set p : Apacket := stamp { addr := addr, len := bytes.length, data := bytes, msg := {
    command := aWrte
    arg0 := s.id
    arg1 := q.id
    dataLength := UInt32.ofNat bytes.length } } with hp
  have hwrite := writePacket_outcome hx (some r) p
  show Outcome (D.writePacket (some r) p t >>= _) _ _
  refine Outcome.bind (hwrite.imp (fun _ => id) ?_) ?_
  · rintro e ⟨hfatal, hno⟩
    exact ⟨hfatal, fun hgood => hno (hgood.takes r q t x h.remote h.isRemote h.transport hx)⟩
  · rintro D' - rfl
    refine ⟨rfl, rfl, rfl, rfl, rfl, rfl, ?_, fun n hgood => hgood.sends hx, p, ?_, rfl⟩
    · exact disconnectsOf_assign hx rfl
    · refine ⟨rfl, rfl, rfl, ?_⟩
      show bytes.take (UInt32.ofNat bytes.length).toNat = bytes
      have hsmall : bytes.length < 2 ^ 32 := lt_of_le_of_lt hlen (by decide)
      rw [UInt32.toNat_ofNat_of_lt' hsmall, List.take_length]

/-- The stream after something that touches neither of its sockets nor the lists. -/
lemma Exited.quiet (h : Exited D a s r q t) (hsockets : D'.sockets = D.sockets)
    (hnext : D'.nextAddr = D.nextAddr) (hlist : D'.localSocketList = D.localSocketList)
    (hclosing : D'.localSocketClosingList = D.localSocketClosingList)
    (htr : disconnectsOf D'.transports = disconnectsOf D.transports)
    (heof : (D'.loop.mem (.socket a)).forceEof = (D.loop.mem (.socket a)).forceEof) :
    Exited D' a s r q t := by
  apply h.congr s.pkts ?_ hnext hlist hclosing htr heof
  rw [hsockets]
  exact (update_eq_self_iff.mpr h.near.symm).symm

/-- An end of file before anything could be read. -/
lemma localSocketReadable_nothing (h : Exited D a s r q t)
    (hnil : (readLoop maxPayload D.io.reads).1 = [])
    (heof : (readLoop maxPayload D.io.reads).2.1 = true) :
    Outcome (D.localSocketReadable a) (Closed a r q t (sends D.trace)) fun e =>
      e = .exitOnClose a ∧ s.exitOnClose = true ∨ IsFatal e ∧ ¬Good 2 D := by
  rcases hread : readLoop maxPayload D.io.reads with ⟨bytes, eof, rs⟩
  rw [hread] at hnil heof
  dsimp only at hnil heof
  subst hnil heof
  rw [localSocketReadable_eq h hread, if_pos rfl, if_pos rfl]
  set D₁ : Daemon := (afterReads a [] rs D).putApacket D.getApacket.1 with hD₁
  have hlive : Exited D₁ a s r q t := h.quiet rfl rfl rfl rfl rfl rfl
  refine hlive.close.imp (fun _ => id) ?_
  rintro e (hexit | ⟨hfatal, hno⟩)
  · exact Or.inl hexit
  · refine Or.inr ⟨hfatal, fun hgood => hno ?_⟩
    have hgood₁ : Good 2 D₁ :=
      hgood.quiet (fun _ z hz => ⟨z, hz, rfl, id, rfl⟩) rfl rfl rfl rfl
    exact hgood₁.mono (Nat.le_succ 1)

/-- Bytes are sent before anything is closed. -/
lemma localSocketReadable_something (h : Exited D a s r q t)
    (hbytes : (readLoop maxPayload D.io.reads).1 ≠ []) :
    Outcome (D.localSocketReadable a) (fun D' =>
      ∃ p, Carries s q (readLoop maxPayload D.io.reads).1 p ∧
        (sends D'.trace = (t, p) :: sends D.trace ∨
          Closed a r q t ((t, p) :: sends D.trace) D')) fun e =>
      e = .exitOnClose a ∧ s.exitOnClose = true ∨ IsFatal e ∧ ¬Good 2 D := by
  have hlen := readLoop_length maxPayload D.io.reads
  rcases hread : readLoop maxPayload D.io.reads with ⟨bytes, eof, rs⟩
  rw [hread] at hbytes hlen
  dsimp only at hbytes hlen ⊢
  rw [localSocketReadable_eq h hread, if_neg hbytes]
  set D₁ : Daemon := afterReads a bytes rs D with hD₁
  have h₁ : Exited D₁ a s r q t := h.quiet rfl rfl rfl rfl rfl rfl
  have hgood₁ : Good 2 D → Good 2 D₁ :=
    fun hgood => hgood.quiet (fun _ z hz => ⟨z, hz, rfl, id, rfl⟩) rfl rfl rfl rfl
  refine Outcome.bind ((enqueue_sent h₁ hlen D.getApacket.1.addr).imp (fun _ => id) ?_) ?_
  · rintro e ⟨hfatal, hno⟩
    exact Or.inr ⟨hfatal, fun hgood => hno ((hgood₁ hgood).mono (Nat.le_succ 1))⟩
  rintro ⟨w, D₂⟩ - ⟨hw, hsent⟩
  dsimp only at hw hsent
  subst hw
  have h₂ : Exited D₂ a s r q t := h₁.quiet hsent.sockets hsent.nextAddr hsent.list hsent.closing
    hsent.disconnects (by rw [hsent.loop])
  obtain ⟨p, hp, htrace⟩ := hsent.sent
  dsimp only
  rw [if_neg (by decide), if_neg (by decide), onLoop]
  cases hL : D₂.loop.fdeventDel (.socket a) fdeRead with
  | error e =>
    obtain ⟨n, rfl⟩ := Loop.fdeventSet_error hL
    refine Or.inr ⟨trivial, fun hgood => ?_⟩
    have hplace := ((hsent.good 1 (hgood₁ hgood)).place a s h₂.near).synced h.isFd
    obtain ⟨L', hL', -⟩ := Loop.fdeventDel_succeeds hplace.1 fdeRead
    rw [hL] at hL'
    cases hL'
  | ok L =>
    have hspec : Loop.SetSpec _ _ D₂.loop L := Loop.fdeventSet_spec hL
    set D₃ : Daemon := { D₂ with loop := L } with hD₃
    have h₃ : Exited D₃ a s r q t := h₂.quiet rfl rfl rfl rfl rfl hspec.forceEof
    show Outcome (if ((D₃.loop.mem (.socket a)).forceEof && decide ((1 : Int) = 0)) || eof then
      D₃.close a else pure D₃) _ _
    split
    case isTrue =>
      refine h₃.close.imp ?_ ?_
      · intro D' hc
        refine ⟨p, hp, Or.inr ?_⟩
        have hsame : sends D₃.trace = (t, p) :: sends D.trace := htrace
        rw [← hsame]
        exact hc
      · rintro e (hexit | ⟨hfatal, hno⟩)
        · exact Or.inl hexit
        · refine Or.inr ⟨hfatal, fun hgood => hno ?_⟩
          exact (hsent.good 1 (hgood₁ hgood)).del h₂.near h.isFd hL
    case isFalse => exact ⟨p, hp, Or.inl htrace⟩

/-- A callback in which no byte can be read closes the stream of a shell that has exited, and one
that reads something sends it first, exactly if the first read does not say `EAGAIN`. -/
theorem forces_iff {D₀ : Daemon} (h : Exited D₀ a s r q t) (hreads : Reads ev a D₀ D) :
    Forces ev a r s q t D₀ D ↔ blocked D₀.io.reads = false := by
  obtain ⟨⟨ps, hD⟩, hio, hrun⟩ := hreads.exited h
  rw [Forces, hrun]
  constructor
  · intro hforces
    by_contra hblocked
    rw [Bool.not_eq_false, ← hio] at hblocked
    obtain ⟨D', hD', hsockets⟩ := localSocketReadable_blocked hD hblocked
    have hends := hforces.success hD'
    rw [Ends, if_pos (readLoop_blocked hblocked).1] at hends
    have hclosing := (hends.near _ (hsockets ▸ hD.near)).1
    rw [hD.listed.2] at hclosing
    cases hclosing
  · intro hopen
    rw [← hio] at hopen
    by_cases hnil : (readLoop maxPayload D.io.reads).1 = []
    · refine (localSocketReadable_nothing hD hnil (readLoop_open hopen hnil)).mono ?_
      intro D' hclosed
      rw [Ends, if_pos hnil]
      exact hclosed
    · refine (localSocketReadable_something hD hnil).mono ?_
      intro D' hsent
      rw [Ends, if_neg hnil]
      exact hsent

/-! ## A shell that leaves a process behind -/

/-- A host opens a shell, which exits; a process it has started holds the pty. -/
def shellExits : List Event :=
  PeerLinks.openShell ++ [⟨.epollWait [(9, ⟨true, false, false⟩)], {}⟩,
    ⟨.dispatch, { reads := [.data [13, 0, 0, 0], .again] }⟩]

/-- After the run the stream between the sockets 0 and 1 is still there. -/
lemma exists_exited : ∃ D s q, Reachable D ∧ Exited D 0 s 1 q 0 := by
  obtain ⟨D, hD, hrun⟩ := @exists_reachable (Option (Bool × Option Addr) ×
      Option (SocketOps × Option TAddr) × Bool) PeerLinks.unlocked [3, 4, 6, 7, 8, 9]
    (fun _ => false) shellExits
    (fun D => ((D.sockets 0).map fun s => (s.ops.isFd, s.peer),
      (D.sockets 1).map fun q => (q.ops, q.transport), (D.loop.mem (.socket 0)).forceEof))
    (some (true, some 1), some (.remote, some 0), true) (by decide +kernel)
  rw [Prod.mk.injEq, Prod.mk.injEq] at hrun
  obtain ⟨hnear, hremote, heof⟩ := hrun
  obtain ⟨s, hs, hnear⟩ := Option.map_eq_some_iff.mp hnear
  obtain ⟨q, hq, hremote⟩ := Option.map_eq_some_iff.mp hremote
  rw [Prod.mk.injEq] at hnear hremote
  exact ⟨D, s, q, hD, hD.wf.peers, hs, hnear.1, hnear.2, hq, hremote.1, hremote.2, heof⟩

/-- The next callback finds nothing to read: the stream stays. -/
theorem not_forces_background : ∃ D s q, Reachable D ∧ Exited D 0 s 1 q 0 ∧
    ¬Forces fdeRead 0 1 s q 0 { D with io := { reads := [.again] } }
      { D with io := { reads := [.again] } } := by
  obtain ⟨D, s, q, hreachable, hD⟩ := exists_exited
  refine ⟨D, s, q, hreachable, hD, fun hforces => ?_⟩
  have hD' : Exited { D with io := { reads := [.again] } } 0 s 1 q 0 :=
    hD.quiet rfl rfl rfl rfl rfl rfl
  obtain ⟨D', hrun, hsockets⟩ := localSocketReadable_blocked hD' rfl
  have hends := hforces.success hrun
  rw [Ends, if_pos (readLoop_blocked rfl).1] at hends
  have hclosing := (hends.near s (hsockets ▸ hD.near)).1
  rw [hD.listed.2] at hclosing
  cases hclosing

/-- The theorem in that state, when the process has gone. -/
theorem forces_iff_gone : ∃ D s q, Reachable D ∧ Exited D 0 s 1 q 0 ∧
    (Forces fdeRead 0 1 s q 0 { D with io := { reads := [.fail] } }
      { D with io := { reads := [.fail] } } ↔ blocked [.fail] = false) := by
  obtain ⟨D, s, q, hreachable, hD⟩ := exists_exited
  have hD' : Exited { D with io := { reads := [.fail] } } 0 s 1 q 0 :=
    hD.quiet rfl rfl rfl rfl rfl rfl
  exact ⟨D, s, q, hreachable, hD, forces_iff hD' ⟨rfl, rfl⟩⟩

end Adbd.ForcedEof
