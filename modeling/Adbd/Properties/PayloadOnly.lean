import Adbd.Framework.Bytes
import Adbd.Properties.PeerLinks

/-!
# What `handle_packet` reads of a packet

`get_apacket` does not clear the data buffer, and a packet that comes in fills it up to
`data_length` only; behind that lies whatever was there before.  This file asks what of it
`handle_packet` can see.  `data` is all memory from the buffer on, so a packet whose `data` ends
at `data_length` is one in which every read past the payload is caught.

`A_OPEN` overwrites the last byte of the payload with a terminator and `adb_auth_confirm_key`
checks that it is one; `parse_banner` is given the buffer as it is.  A banner that carries no
terminator is read past its end (`payload_only_iff`).
-/

namespace Adbd

open Syscall

/-! ## What can be seen of a packet -/

/-- A packet on its way through a transport: the header and the payload. -/
def Apacket.onWire (p : Apacket) : Apacket := { p with data := p.payload }

/-- A packet in the queue of a socket: nothing behind the bytes still to be written. -/
def Apacket.inQueue (p : Apacket) : Apacket := { p with data := p.data.take (p.ptr + p.len) }

def Asocket.seen (s : Asocket) : Asocket := { s with pkts := s.pkts.map Apacket.inQueue }

def Atransport.seen (x : Atransport) : Atransport :=
  { x with
    toMain := x.toMain.map Apacket.onWire
    toInput := x.toInput.map Apacket.onWire }

def Obs.seen : Obs → Obs
  | .received t p => .received t p.onWire
  | .sent t via p => .sent t via p.onWire
  | .toRemote t p => .toRemote t p.onWire
  | o => o

namespace Daemon

/-- The state without the residue in its packets. -/
def seen (D : Daemon) : Daemon :=
  { D with
    sockets := fun a => (D.sockets a).map Asocket.seen
    transports := fun t => (D.transports t).map Atransport.seen
    trace := D.trace.map Obs.seen }

/-- The same outcome, residue aside. -/
def SameOutcome (x y : Except Stop Daemon) : Prop := x.map seen = y.map seen

/-- `q` is `p` with other bytes behind the payload. -/
def SamePayload (p q : Apacket) : Prop := q = { p with data := q.data } ∧ q.payload = p.payload

/-- The body of `handle_packet`; that it was called is recorded by the caller. -/
def dispatchPacket (p : Apacket) (t : TAddr) (D : Daemon) : Except Stop Daemon := do
  if p.msg.command = aSync then D.handleSync p t
  else if p.msg.command = aCnxn then do
    let D ← D.handleCnxn p t
    pure (D.putApacket p)
  else if p.msg.command = aAuth then do
    let D ← D.handleAuth p t
    pure (D.putApacket p)
  else if p.msg.command = aOpen then do
    let D ← D.handleOpen p t
    pure (D.putApacket p)
  else if p.msg.command = aOkay then do
    let D ← D.handleOkay p t
    pure (D.putApacket p)
  else if p.msg.command = aClse then do
    let D ← D.handleClse p t
    pure (D.putApacket p)
  else if p.msg.command = aWrte then do
    let (mine, D) ← D.handleWrte p t
    pure (if mine then D.putApacket p else D)
  else pure (D.putApacket p)

lemma handlePacket_eq (p : Apacket) (t : TAddr) (D : Daemon) :
    D.handlePacket p t = (D.emit (.received t p)).dispatchPacket p t := rfl

/-! ## The commands that only look at the payload -/

section

variable {p q : Apacket} {t : TAddr} {D : Daemon}

lemma SamePayload.msg (h : SamePayload p q) : q.msg = p.msg := by
  rw [h.1]

lemma SamePayload.addr (h : SamePayload p q) : q.addr = p.addr := by
  rw [h.1]

lemma take_payload {n : ℕ} (hn : n ≤ p.msg.dataLength.toNat) :
    p.data.take n = p.payload.take n := by
  rw [Apacket.payload, List.take_take, Nat.min_eq_left hn]

/-- A prefix of the payload is the same in both. -/
lemma SamePayload.take (h : SamePayload p q) {n : ℕ} (hn : n ≤ p.msg.dataLength.toNat) :
    q.data.take n = p.data.take n := by
  rw [take_payload hn, take_payload (h.msg ▸ hn), h.2]

/-- A string that ends within the payload. -/
lemma cstr_payload (h : 0 ∈ p.payload) : cstr p.data = cstr p.payload := by
  have hmem : 0 ∈ p.data := List.mem_of_mem_take h
  have hsplit : p.data = p.payload ++ p.data.drop p.msg.dataLength.toNat :=
    (List.take_append_drop _ _).symm
  rw [cstr, cstr, if_pos hmem, if_pos h]
  congr 1
  rw [hsplit]
  exact Bytes.takeWhile_append_of_mem h

lemma SamePayload.cstr (h : SamePayload p q) (h0 : 0 ∈ p.payload) :
    Adbd.cstr q.data = Adbd.cstr p.data := by
  rw [cstr_payload h0, cstr_payload (h.2 ▸ h0), h.2]

lemma lastKeyByte_payload (hne : p.msg.dataLength ≠ 0) :
    lastKeyByte p = p.payload[p.msg.dataLength.toNat - 1]? := by
  have hpos : 0 < p.msg.dataLength.toNat := by
    rw [Nat.pos_iff_ne_zero]
    intro hzero
    exact hne (UInt32.toNat_inj.mp hzero)
  rw [lastKeyByte, if_neg hne, Apacket.payload, List.getElem?_take, if_pos (by omega)]

lemma SamePayload.lastKeyByte (h : SamePayload p q) :
    Daemon.lastKeyByte q = Daemon.lastKeyByte p := by
  by_cases hzero : p.msg.dataLength = 0
  · rw [Daemon.lastKeyByte, Daemon.lastKeyByte, h.msg, if_pos hzero, if_pos hzero]
  · rw [lastKeyByte_payload hzero, lastKeyByte_payload (h.msg ▸ hzero), h.2, h.msg]

/-- A key that ends in a terminator has one, unless it is empty; an empty one is not taken for
such because of the magic number in front of it. -/
lemma zero_mem_key (hh : checkHeader p.msg = true) (hcmd : p.msg.command = aAuth)
    (hlast : lastKeyByte p = some 0) : 0 ∈ p.payload := by
  by_cases hzero : p.msg.dataLength = 0
  · have hmagic : p.msg.magic = aAuth ^^^ 0xffffffff := by
      rw [checkHeader, Bool.and_eq_true, decide_eq_true_eq] at hh
      rw [hh.1, hcmd]
    rw [lastKeyByte, if_pos hzero, hmagic] at hlast
    exact absurd hlast (by decide)
  · rw [lastKeyByte_payload hzero] at hlast
    exact List.mem_of_getElem? hlast

lemma SamePayload.adbAuthConfirmKey (h : SamePayload p q) (hh : checkHeader p.msg = true)
    (hcmd : p.msg.command = aAuth) : D.adbAuthConfirmKey q t = D.adbAuthConfirmKey p t := by
  unfold Daemon.adbAuthConfirmKey
  rw [h.lastKeyByte]
  by_cases hlast : Daemon.lastKeyByte p = some 0
  · rw [h.cstr (zero_mem_key hh hcmd hlast)]
  · split
    · rfl
    · rw [if_pos hlast, if_pos hlast]

lemma SamePayload.handleAuth (h : SamePayload p q) (hh : checkHeader p.msg = true)
    (hcmd : p.msg.command = aAuth) : D.handleAuth q t = D.handleAuth p t := by
  unfold Daemon.handleAuth
  rw [h.msg, h.2, h.adbAuthConfirmKey hh hcmd]

lemma SamePayload.handleCnxn (h : SamePayload p q) (h0 : 0 ∈ p.payload) :
    D.handleCnxn q t = D.handleCnxn p t := by
  unfold Daemon.handleCnxn
  rw [h.cstr h0]

lemma SamePayload.handleOpen (h : SamePayload p q) : D.handleOpen q t = D.handleOpen p t := by
  have hname : openName q = openName p := by
    rw [openName, openName, h.msg, h.take (Nat.sub_le ..)]
  unfold Daemon.handleOpen
  rw [h.msg, hname]

lemma SamePayload.handleOkay (h : SamePayload p q) : D.handleOkay q t = D.handleOkay p t := by
  unfold Daemon.handleOkay
  rw [h.msg]

lemma SamePayload.handleClse (h : SamePayload p q) : D.handleClse q t = D.handleClse p t := by
  unfold Daemon.handleClse
  rw [h.msg]

lemma SamePayload.putApacket (h : SamePayload p q) : D.putApacket q = D.putApacket p := by
  rw [Daemon.putApacket, Daemon.putApacket, h.addr]

/-! ## The commands that hand the packet on -/

lemma derefT_seen (t : TAddr) (D : Daemon) :
    D.seen.derefT t = (D.derefT t).map Atransport.seen := by
  unfold derefT
  cases h : D.transports t with
  | none => simp [seen, h, Except.map]
  | some x => simp [seen, h, Except.map]

lemma seen_setTransport (t : TAddr) (x : Atransport) (D : Daemon) :
    (D.setTransport t x).seen = D.seen.setTransport t x.seen := by
  simp only [seen, setTransport, Daemon.mk.injEq, true_and, and_true]
  funext u
  by_cases hu : u = t
  · subst hu
    simp
  · simp [hu]

/-- A packet that is sent goes to the same place whatever lies behind its payload. -/
lemma seen_writePacket (via : Option Addr) (p : Apacket) (t : TAddr) (D : Daemon) :
    (D.writePacket via p t).map seen = D.seen.writePacket via p.onWire t := by
  unfold writePacket
  rw [derefT_seen]
  cases D.derefT t with
  | error r => rfl
  | ok x =>
    change Except.map seen (if D.holds x.transportSocket (.transportSocket t) then _ else _) =
      if D.holds x.transportSocket (.transportSocket t) then
        if D.holds x.fd (.transportFd t) then
          if D.config.hasRoom (x.toInput.map _).length then _ else _
        else _
      else _
    rw [List.length_map]
    split
    · split
      · split
        · change Except.ok ((D.setTransport t { x with toInput := x.toInput ++ [p] }).seen.emit
            (.sent t via p.onWire)) = Except.ok ((D.seen.setTransport t _).emit _)
          rw [seen_setTransport]
          simp [Atransport.seen]
        · rfl
      · rfl
    · change _ = if D.loop.inUse x.transportSocket then _ else _
      split
      · rfl
      · rfl

lemma SameOutcome.writePacket {via : Option Addr} {D' : Daemon} (hD : D.seen = D'.seen)
    (hp : p.onWire = q.onWire) :
    SameOutcome (D.writePacket via p t) (D'.writePacket via q t) := by
  rw [SameOutcome, seen_writePacket, seen_writePacket, hD, hp]

lemma SamePayload.stamp (h : SamePayload p q) :
    (Adbd.stamp p).onWire = (Adbd.stamp q).onWire := by
  obtain ⟨d, rfl⟩ : ∃ d, q = { p with data := d } := ⟨q.data, h.1⟩
  unfold Apacket.onWire Adbd.stamp
  rw [h.2]
  have hpay : ∀ m : Amessage, m.dataLength = p.msg.dataLength →
      ({ p with msg := m, data := d } : Apacket).payload = p.payload := by
    intro m hm
    rw [← h.2]
    exact congrArg (fun n : UInt32 => d.take n.toNat) hm
  simp only [hpay]
  rfl

lemma SameOutcome.bind {x y : Except Stop Daemon} {f g : Daemon → Except Stop Daemon}
    (h : SameOutcome x y) (hfg : ∀ D D', D.seen = D'.seen → SameOutcome (f D) (g D')) :
    SameOutcome (x >>= f) (y >>= g) := by
  cases x with
  | error r =>
    cases y with
    | error r' => exact congrArg Except.error (Except.error.inj h)
    | ok D' => cases h
  | ok D =>
    cases y with
    | error r' => cases h
    | ok D' => exact hfg D D' (Except.ok.inj h)

/-- What the daemon sends of its own does not depend on any packet. -/
lemma SameOutcome.sendMsg {via : Option Addr} {m : Amessage} {data : List UInt8} {D' : Daemon}
    (hD : D.seen = D'.seen) :
    SameOutcome (D.sendMsg via m data (some t)) (D'.sendMsg via m data (some t)) := by
  have hnext : D.seen.nextPacket = D'.seen.nextPacket := congrArg Daemon.nextPacket hD
  change D.nextPacket = D'.nextPacket at hnext
  unfold Daemon.sendMsg getApacket sendPacket
  simp only [hnext]
  exact .writePacket (congrArg (fun E : Daemon => { E with nextPacket := D'.nextPacket + 1 }) hD)
    rfl

lemma SamePayload.handleSync (h : SamePayload p q) :
    SameOutcome (D.handleSync p t) (D.handleSync q t) := by
  unfold Daemon.handleSync
  rw [h.msg]
  split
  · apply SameOutcome.bind (.writePacket rfl h.stamp)
    intro D₁ D₂ hD
    have hconfig : D₁.seen.config = D₂.seen.config := congrArg Daemon.config hD
    change D₁.config = D₂.config at hconfig
    rw [hconfig]
    split
    · unfold sendConnect
      simp only [hconfig]
      split
      · rfl
      · exact .sendMsg hD
    · exact congrArg Except.ok hD
  · cases hm : D.modifyT t _ with
    | error r => rfl
    | ok D₁ =>
      change SameOutcome (D₁.handleOffline t >>= _) (D₁.handleOffline t >>= _)
      cases D₁.handleOffline t with
      | error r => rfl
      | ok D₂ => exact .writePacket rfl h.stamp

/-! ## `A_WRTE` -/

lemma seen_setSocket (a : Addr) (s : Asocket) (D : Daemon) :
    (D.setSocket a s).seen = D.seen.setSocket a s.seen := by
  simp only [seen, setSocket, Daemon.mk.injEq, true_and, and_true]
  funext b
  by_cases hb : b = a
  · subst hb
    simp
  · simp [hb]

/-- The same answer and, residue aside, the same state; the very same state if the caller goes
on to send something. -/
def SameAnswer (x y : Except Stop (Int × Daemon)) : Prop :=
  x = y ∨ ∃ D D' : Daemon, x = .ok (1, D) ∧ y = .ok (1, D') ∧ D.seen = D'.seen

lemma SameAnswer.linkPacket {a : Addr} (hp : p.inQueue = q.inQueue) :
    SameAnswer (D.linkPacket a p) (D.linkPacket a q) := by
  unfold Daemon.linkPacket
  cases hs : D.deref a with
  | error r => exact .inl rfl
  | ok s =>
    change SameAnswer
      ((D.setSocket a { s with pkts := s.pkts ++ [p] }).onLoop _ >>= fun D => pure (1, D))
      ((D.setSocket a { s with pkts := s.pkts ++ [q] }).onLoop _ >>= fun D => pure (1, D))
    unfold onLoop
    change SameAnswer ((D.loop.fdeventAdd (.socket a) fdeWrite >>= _) >>= _)
      ((D.loop.fdeventAdd (.socket a) fdeWrite >>= _) >>= _)
    cases D.loop.fdeventAdd (.socket a) fdeWrite with
    | error r => exact .inl rfl
    | ok L =>
      refine .inr ⟨_, _, rfl, rfl, ?_⟩
      have hseen : (D.setSocket a { s with pkts := s.pkts ++ [p] }).seen =
          (D.setSocket a { s with pkts := s.pkts ++ [q] }).seen := by
        rw [seen_setSocket, seen_setSocket]
        simp [Asocket.seen, hp]
      exact congrArg (fun E : Daemon => { E with loop := L }) hseen

/-- The two packets as `local_socket_enqueue` gets them. -/
lemma SamePayload.remaining (h : SamePayload p q) :
    ({ q with len := q.msg.dataLength.toNat, ptr := 0 } : Apacket).remaining =
      ({ p with len := p.msg.dataLength.toNat, ptr := 0 } : Apacket).remaining := h.2

lemma length_writeLoop_le (bs : List UInt8) (ws : List WriteResult) :
    (writeLoop bs ws).1.length ≤ bs.length := by
  obtain ⟨rest, hbs, -⟩ := writeLoop_spec bs ws
  rw [congrArg List.length hbs, List.length_append]
  exact Nat.le_add_right ..

/-- A packet that is queued, `n` of its bytes having been written. -/
lemma SamePayload.inQueue (h : SamePayload p q) {n : ℕ} (hn : n ≤ p.msg.dataLength.toNat) :
    (advance { p with len := p.msg.dataLength.toNat, ptr := 0 } n).inQueue =
      (advance { q with len := q.msg.dataLength.toNat, ptr := 0 } n).inQueue := by
  have hlen : 0 + n + (p.msg.dataLength.toNat - n) = p.msg.dataLength.toNat := by omega
  obtain ⟨d, rfl⟩ : ∃ d, q = { p with data := d } := ⟨q.data, h.1⟩
  have hd : d.take p.msg.dataLength.toNat = p.data.take p.msg.dataLength.toNat := h.2
  simp only [advance, Apacket.inQueue, hlen, hd]

lemma SamePayload.localSocketEnqueue (h : SamePayload p q) {a : Addr} :
    SameAnswer (D.localSocketEnqueue a { p with len := p.msg.dataLength.toNat })
      (D.localSocketEnqueue a { q with len := q.msg.dataLength.toNat }) := by
  unfold Daemon.localSocketEnqueue
  cases hs : D.deref a with
  | error r => exact .inl rfl
  | ok s =>
    change SameAnswer
      (if s.pkts ≠ [] then (D.emit (.enqueued a _ [])).linkPacket a _ else _)
      (if s.pkts ≠ [] then (D.emit (.enqueued a _ [])).linkPacket a _ else _)
    rw [h.remaining]
    split
    · exact .linkPacket (h.inQueue (Nat.zero_le _))
    · have hle := length_writeLoop_le
        ({ p with len := p.msg.dataLength.toNat, ptr := 0 } : Apacket).remaining D.io.writes
      generalize writeLoop _ D.io.writes = w at hle ⊢
      obtain ⟨out, e, ws⟩ := w
      cases e with
      | done =>
        left
        simp only [Daemon.putApacket, h.addr]
      | again =>
        refine .linkPacket (h.inQueue (hle.trans ?_))
        exact (List.length_take_le ..)
      | failed => exact .inl rfl

lemma SamePayload.enqueue (h : SamePayload p q) {a : Addr} {s : Asocket}
    (hs : D.sockets a = some s) (hlocal : s.ops.isLocal = true) :
    SameAnswer (D.enqueue a { p with len := p.msg.dataLength.toNat })
      (D.enqueue a { q with len := q.msg.dataLength.toNat }) := by
  have hderef : D.deref a = .ok s := by
    rw [deref, hs]
  have haddr : D.putApacket { q with len := q.msg.dataLength.toNat } =
      D.putApacket { p with len := p.msg.dataLength.toNat } := by
    simp only [Daemon.putApacket, h.addr]
  cases hops : s.ops with
  | fd | fdNotify =>
    have heq : ∀ r, D.enqueue a r = D.localSocketEnqueue a r := by
      intro r
      simp [Daemon.enqueue, hderef, hops, Bind.bind, Except.bind]
    rw [heq, heq]
    exact h.localSocketEnqueue
  | jdwp | tracker =>
    have heq : ∀ r, D.enqueue a r = D.jdwpSocketEnqueue a r := by
      intro r
      simp [Daemon.enqueue, jdwpTrackerEnqueue, hderef, hops, Bind.bind, Except.bind]
    rw [heq, heq]
    left
    unfold jdwpSocketEnqueue
    rw [haddr]
  | remote | smart =>
    rw [hops] at hlocal
    cases hlocal

/-- The local socket list holds sockets of the local kinds, as `install_local_socket` and
`remove_socket` are only ever called for these. -/
def ListsLocal (D : Daemon) : Prop :=
  ∀ a ∈ D.localSocketList, ∃ s, D.sockets a = some s ∧ s.ops.isLocal = true

lemma listsLocal_of_reachable (h : Reachable D) : D.ListsLocal := by
  intro a ha
  obtain ⟨s, hs, -, hlocal⟩ := h.wf.peers.listed a ha
  exact ⟨s, hs, hlocal⟩

lemma SamePayload.handleWrte (h : SamePayload p q) (hD : D.ListsLocal) :
    SameOutcome
      (do
        let (mine, D) ← D.handleWrte p t
        pure (if mine then D.putApacket p else D))
      (do
        let (mine, D) ← D.handleWrte q t
        pure (if mine then D.putApacket q else D)) := by
  have hput : ∀ D : Daemon, D.putApacket q = D.putApacket p := fun D => h.putApacket
  unfold Daemon.handleWrte
  rw [h.msg]
  cases D.derefT t with
  | error r => rfl
  | ok x =>
    simp only [hput]
    by_cases hon : x.online = false
    · simp [hon, SameOutcome, Bind.bind, Except.bind, Pure.pure, Except.pure]
    cases hf : D.findLocalSocket p.msg.arg1 with
    | none => simp [hon, SameOutcome, Bind.bind, Except.bind, Pure.pure, Except.pure]
    | some a =>
      obtain ⟨s, hs, hlocal⟩ := hD a (List.mem_of_find?_eq_some hf)
      have hderef : D.deref a = .ok s := by
        rw [deref, hs]
      have hmsg := h.msg
      have henq := h.enqueue hs hlocal
      rw [hmsg] at henq
      rcases henq with heq | ⟨D₁, D₂, h₁, h₂, hseen⟩
      · simp only [Bind.bind, Except.bind, hderef, if_neg hon, heq]
        rfl
      · simp only [Bind.bind, Except.bind, hderef, if_neg hon, h₁, h₂]
        exact congrArg Except.ok hseen

/-- Whatever the transport and the sockets are, a packet's effect is that of its payload, if a
banner is terminated. -/
theorem SamePayload.dispatchPacket (h : SamePayload p q) (hh : checkHeader p.msg = true)
    (hD : D.ListsLocal) (hcnxn : p.msg.command = aCnxn → 0 ∈ p.payload) :
    SameOutcome (D.dispatchPacket p t) (D.dispatchPacket q t) := by
  have hput : ∀ D : Daemon, D.putApacket q = D.putApacket p := fun D => h.putApacket
  unfold Daemon.dispatchPacket
  rw [h.msg]
  split
  · exact h.handleSync
  split
  case isTrue hcmd => rw [h.handleCnxn (hcnxn hcmd), funext hput]; rfl
  split
  case isTrue hcmd => rw [h.handleAuth hh hcmd, funext hput]; rfl
  split
  · rw [h.handleOpen, funext hput]
    rfl
  split
  · rw [h.handleOkay, funext hput]
    rfl
  split
  · rw [h.handleClse, funext hput]
    rfl
  split
  · exact h.handleWrte hD
  · rw [hput]
    rfl

end

/-! ## A banner without a terminator -/

/-- A transport that is not connected, and nothing else. -/
def loneTransport : Daemon where
  loop :=
    { mem := fun _ => {}
      listPending := []
      fdTable := fun _ => .null
      fdTableMax := 0
      fill := fun _ => .wild
      inUse := fun _ => false
      interest := fun _ => none }
  transports := fun _ => some { type := .usb }

lemma dispatch_banner {p : Apacket} (hcmd : p.msg.command = aCnxn) :
    loneTransport.dispatchPacket p 0 =
      match cstr p.data with
      | .ok banner => .ok ((loneTransport.setTransport 0
          (parseBanner banner { type := .usb })).putApacket p)
      | .error r => .error r := by
  unfold dispatchPacket handleCnxn
  rw [if_neg (by rw [hcmd]; decide), if_pos hcmd]
  cases cstr p.data with
  | error r => rfl
  | ok banner => rfl

/-- The packet's effect is that of its payload in every state if and only if it is no banner, or
a terminated one. -/
theorem payload_only_iff {p : Apacket} (hh : checkHeader p.msg = true)
    (hbuf : maxPayload ≤ p.data.length) :
    (∀ D t q, ListsLocal D → SamePayload p q →
      SameOutcome (D.dispatchPacket p t) (D.dispatchPacket q t)) ↔
    (p.msg.command = aCnxn → 0 ∈ p.payload) := by
  constructor
  · intro hall hcmd
    by_contra h0
    have hlen : p.payload.length = p.msg.dataLength.toNat := by
      rw [checkHeader, Bool.and_eq_true, decide_eq_true_eq, decide_eq_true_eq] at hh
      rw [Apacket.payload, List.length_take]
      exact Nat.min_eq_left (hh.2.trans hbuf)
    have hlocal : ListsLocal loneTransport := by
      intro a ha
      cases ha
    -- memory that ends at the payload, and memory that ends the string right behind it
    have hbare : SamePayload p p.onWire :=
      ⟨rfl, List.take_of_length_le hlen.le⟩
    have hended : SamePayload p { p with data := p.payload ++ [0] } :=
      ⟨rfl, List.take_left' hlen⟩
    have hsame : SameOutcome (loneTransport.dispatchPacket p.onWire 0)
        (loneTransport.dispatchPacket { p with data := p.payload ++ [0] } 0) :=
      (hall loneTransport 0 _ hlocal hbare).symm.trans (hall loneTransport 0 _ hlocal hended)
    have hover : cstr p.payload = .error .overread := by
      rw [cstr, if_neg h0]
    have hends : cstr (p.payload ++ [0]) = .ok ((p.payload ++ [0]).takeWhile (· ≠ 0)) := by
      rw [cstr, if_pos (by simp)]
    rw [dispatch_banner (p := p.onWire) hcmd,
      dispatch_banner (p := { p with data := p.payload ++ [0] }) hcmd] at hsame
    change SameOutcome (match cstr p.payload with | .ok _ => _ | .error _ => _)
      (match cstr (p.payload ++ [0]) with | .ok _ => _ | .error _ => _) at hsame
    rw [hover, hends] at hsame
    cases hsame
  · intro hcnxn D t q hD h
    exact h.dispatchPacket hh hD hcnxn

/-- A banner of six bytes in a buffer full of `junk`. -/
def unterminated (junk : List UInt8) : Apacket :=
  let p := PeerLinks.packetOf aCnxn aVersion 4096 (str "device")
  { p with data := p.data ++ junk ++ List.replicate (maxPayload - 6 - junk.length) 0 }

/-- The type of the connection after the banner. -/
def stateAfter (p : Apacket) (D : Daemon) : Option ConnectionState :=
  (D.dispatchPacket p 0).toOption.bind fun D => (D.transports 0).map (·.connectionState)

lemma stateAfter_eq {p q : Apacket} {D : Daemon}
    (h : SameOutcome (D.dispatchPacket p 0) (D.dispatchPacket q 0)) :
    stateAfter p D = stateAfter q D := by
  -- the state is not part of the residue
  have hseen : ∀ x : Except Stop Daemon, (x.toOption.bind fun D =>
        (D.transports 0).map (·.connectionState)) =
      ((x.map seen).toOption.bind fun D => (D.transports 0).map (·.connectionState)) := by
    intro x
    cases x with
    | error r => rfl
    | ok E =>
      change (E.transports 0).map _ = ((E.transports 0).map Atransport.seen).map _
      rw [Option.map_map]
      rfl
  have h : (D.dispatchPacket p 0).map seen = (D.dispatchPacket q 0).map seen := h
  apply (hseen _).trans
  rw [h]
  exact (hseen _).symm

/-- A TCP connection sends the same unterminated banner: over a cleared buffer it names a
device, over what an earlier packet left there it names a host. -/
theorem banner_reads_residue : ∃ D p q, Reachable D ∧ SamePayload p q ∧
    checkHeader p.msg = true ∧ checkData p = true ∧ p.data.length = maxPayload ∧
    q.data.length = maxPayload ∧ ¬SameOutcome (D.dispatchPacket p 0) (D.dispatchPacket q 0) := by
  obtain ⟨D, hD, hs⟩ := @exists_reachable (Option ConnectionState × Option ConnectionState)
    PeerLinks.unlocked [3, 4, 6, 7, 8, 9] (fun _ => false) (PeerLinks.connect 0 10 11 12)
    (fun D => (stateAfter (unterminated []) D, stateAfter (unterminated [0x78]) D))
    (some .device, some .host) (by decide +kernel)
  refine ⟨D, unterminated [], unterminated [0x78], hD, ⟨rfl, by decide +kernel⟩,
    by decide +kernel, by decide +kernel, by decide +kernel, by decide +kernel, fun hsame => ?_⟩
  rw [Prod.mk.injEq] at hs
  exact absurd (hs.1.symm.trans ((stateAfter_eq hsame).trans hs.2)) (by decide)

/-- A terminated banner, as the theorem has it. -/
theorem payload_only_terminated :
    let p := PeerLinks.packetOf aCnxn aVersion 4096
      (str "device" ++ List.replicate (maxPayload - 6) 0)
    ∀ D t q, ListsLocal D → SamePayload p q →
      SameOutcome (D.dispatchPacket p t) (D.dispatchPacket q t) :=
  (payload_only_iff (by decide +kernel) (by decide +kernel)).mpr fun _ => by decide +kernel

end Daemon

end Adbd
