import Adbd.Effects.Closing
import Adbd.Effects.Data

/-!
# Requests to the smart socket, however they are cut

A local client sends four hex digits and as many bytes of a service name.  What arrives is
handed to `smart_socket_enqueue` packet by packet; each call parses everything that has come in
so far, and the call that completes the request, or spoils it, frees or rewires the sockets.

`verdict` is the parser of the whole byte string.  Feeding any division of a byte string into
packets comes to the verdict on the whole (`feed_parsed`): the socket waits, holding all the
bytes; or it is gone together with its client; or it is gone, its client waits unpaired, and one
`A_OPEN` has been sent.
-/

namespace Adbd

open Function Daemon

namespace SmartRequest

/-! ## The request -/

/-- The value of a hex digit. -/
def hexDigit (c : UInt8) : Option ℕ :=
  if 0x30 ≤ c ∧ c ≤ 0x39 then some (c.toNat - 0x30)
  else if 0x61 ≤ c ∧ c ≤ 0x66 then some (c.toNat - 0x61 + 10)
  else if 0x41 ≤ c ∧ c ≤ 0x46 then some (c.toNat - 0x41 + 10)
  else none

/-- The number that hex digits spell, if all of them are digits. -/
def hexValue (bs : List UInt8) : Option ℕ :=
  (bs.mapM hexDigit).map fun ds => ds.foldl (fun n d => 16 * n + d) 0

/-- What a byte string is, as a request. -/
inductive Verdict
  | waiting
  | refused
  | request (name : List UInt8)
  deriving DecidableEq, Repr

/-- The parser of a whole byte string. -/
def verdict (w : List UInt8) : Verdict :=
  if w.length < 4 then .waiting
  else
    match hexValue (w.take 4) with
    | none => .refused
    | some n =>
      if 1 ≤ n ∧ n ≤ 1024 then
        if w.length < 4 + n then .waiting
        else .request (((w.drop 4).take n).takeWhile (· ≠ 0))
      else .refused

lemma foldl_none (bs : List UInt8) : bs.foldl (fun n c => do
    let n ← n
    let d ← hexDigit c
    pure (16 * n + d)) (none : Option ℕ) = none := by
  induction bs with
  | nil => rfl
  | cons c bs ih => exact ih

/-- The accumulator of `unhex` and the digits read one by one. -/
lemma foldl_some (bs : List UInt8) (n : ℕ) : bs.foldl (fun n c => do
    let n ← n
    let d ← hexDigit c
    pure (16 * n + d)) (some n) =
      (bs.mapM hexDigit).map fun ds => ds.foldl (fun n d => 16 * n + d) n := by
  induction bs generalizing n with
  | nil => rfl
  | cons c bs ih =>
    rw [List.foldl_cons, List.mapM_cons]
    cases hc : hexDigit c with
    | none => exact foldl_none bs
    | some d =>
      refine (ih (16 * n + d)).trans ?_
      cases bs.mapM hexDigit <;> rfl

lemma unhex_eq (bs : List UInt8) : unhex bs = hexValue bs := foldl_some bs 0

/-- Once the verdict is there, more bytes do not change it. -/
lemma verdict_append {w : List UInt8} (h : verdict w ≠ .waiting) (rest : List UInt8) :
    verdict (w ++ rest) = verdict w := by
  have hlen : ¬w.length < 4 := fun hlt => h (if_pos hlt)
  have htake : (w ++ rest).take 4 = w.take 4 := List.take_append_of_le_length (by omega)
  have hlen' : ¬(w ++ rest).length < 4 := by
    rw [List.length_append]
    omega
  rw [verdict, verdict, if_neg hlen, if_neg hlen', htake] at *
  cases hv : hexValue (w.take 4) with
  | none => rfl
  | some n =>
    rw [hv] at h
    dsimp only at h ⊢
    split
    case isFalse => rfl
    case isTrue hn =>
      rw [if_pos hn] at h
      have hall : ¬w.length < 4 + n := fun hlt => h (if_pos hlt)
      have hall' : ¬(w ++ rest).length < 4 + n := by
        rw [List.length_append]
        omega
      rw [if_neg hall, if_neg hall', List.drop_append_of_le_length (by omega),
        List.take_append_of_le_length (by rw [List.length_drop]; omega)]

/-! ## Feeding packets -/

/-- The bytes a packet brings. -/
def bytes (p : Apacket) : List UInt8 := p.data.take p.len

/-- Packets handed to `smart_socket_enqueue` one by one, until it does not return 0. -/
def feed (ss : Addr) : List Apacket → Daemon → Except Stop (Int × Daemon)
  | [], D => .ok (0, D)
  | p :: ps, D =>
    match D.smartSocketEnqueue ss p with
    | .error e => .error e
    | .ok (r, D) => if r = 0 then feed ss ps D else .ok (r, D)

/-- A smart socket that nothing has come to yet, and its client, whose `fdevent` is in
`fd_table` as it should be. -/
structure Connected (D : Daemon) (ss a : Addr) (s q : Asocket) : Prop where
  socket : D.sockets ss = some s
  kind : s.ops = .smart
  empty : s.pkts = []
  peer : s.peer = some a
  client : D.sockets a = some q
  clientKind : q.ops = .fd
  clientPeer : q.peer = some ss
  clientIdle : q.pkts = [] ∧ q.exitOnClose = false
  installed : ∃ L, D.loop.fdeventRemove (.socket a) = .ok L

/-- `send_packet` to the transport goes through. -/
def Takes (D : Daemon) (t : TAddr) : Prop :=
  ∃ x, D.transports t = some x ∧ D.holds x.transportSocket (.transportSocket t) = true ∧
    D.holds x.fd (.transportFd t) = true ∧ D.config.hasRoom x.toInput.length = true

/-- The smart socket waits and holds the bytes `w`; nothing has been sent. -/
structure Waiting (D : Daemon) (ss : Addr) (s : Asocket) (w : List UInt8) (D' : Daemon) :
    Prop where
  holds : ∃ ps, D'.sockets ss = some { s with pkts := ps } ∧ ps.flatMap bytes = w
  others : ∀ b, b ≠ ss → D'.sockets b = D.sockets b
  transports : D'.transports = D.transports
  silent : sends D'.trace = sends D.trace

/-- Both sockets are gone; nothing has been sent. -/
structure Refused (D : Daemon) (ss a : Addr) (D' : Daemon) : Prop where
  socket : D'.sockets ss = none
  client : D'.sockets a = none
  others : ∀ b, b ≠ ss → b ≠ a → D'.sockets b = D.sockets b
  transports : D'.transports = D.transports
  silent : sends D'.trace = sends D.trace

/-- The smart socket is gone, its client waits for `t`, and one packet has been sent. -/
structure Opened (D : Daemon) (ss a : Addr) (q : Asocket) (t : TAddr) (name : List UInt8)
    (D' : Daemon) : Prop where
  socket : D'.sockets ss = none
  client : D'.sockets a = some { q with ops := .fdNotify, peer := none, transport := some t }
  others : ∀ b, b ≠ ss → b ≠ a → D'.sockets b = D.sockets b
  sent : ∃ p x, p.msg.command = aOpen ∧ p.msg.arg0 = q.id ∧ p.payload = name ++ [0] ∧
    sends D'.trace = (t, p) :: sends D.trace ∧ D.transports t = some x ∧
    D'.transports = update D.transports t (some { x with toInput := x.toInput ++ [p] })

/-- The result that the verdict on the bytes `w` asks for. -/
def Parsed (D : Daemon) (ss a : Addr) (s q : Asocket) (w : List UInt8)
    (x : Except Stop (Int × Daemon)) : Prop :=
  match verdict w with
  | .waiting => ∃ D', x = .ok (0, D') ∧ Waiting D ss s w D'
  | .refused => ∃ D', x = .ok (-1, D') ∧ Refused D ss a D'
  | .request name =>
    match D.acquireOneTransport .any with
    | .error _ => ∃ D', x = .ok (-1, D') ∧ Refused D ss a D'
    | .ok t => ∃ D', x = .ok (1, D') ∧ Opened D ss a q t name D'

/-! ## One packet -/

/-- What is done about a verdict. -/
def conclude (ss a : Addr) (w : List UInt8) (D : Daemon) : Except Stop (Int × Daemon) :=
  match verdict w with
  | .waiting => .ok (0, D)
  | .refused => D.smartSocketFail ss
  | .request name =>
    match D.acquireOneTransport .any with
    | .error err => (D.sendfailmsg a err).smartSocketFail ss
    | .ok t => D.smartSocketHandOver ss a t name

/-- The end of `smart_socket_enqueue`, from the packet with everything that has come in. -/
lemma conclude_eq {ss a : Addr} {s : Asocket} {first : Apacket} (hpeer : s.peer = some a)
    (hlen : first.len ≤ first.data.length) (D : Daemon) :
    (if first.len < 4 then pure (0, D)
      else
        match unhex (first.data.take 4) with
        | none => D.smartSocketFail ss
        | some len =>
          if len < 1 ∨ 1024 < len then D.smartSocketFail ss
          else if first.len < len + 4 then pure (0, D)
          else do
            let a ← peerOf ss s
            match D.acquireOneTransport .any with
            | .error err => (D.sendfailmsg a err).smartSocketFail ss
            | .ok t =>
              D.smartSocketHandOver ss a t (((first.data.drop 4).take len).takeWhile (· ≠ 0))) =
      conclude ss a (bytes first) D := by
  have hbytes : (bytes first).length = first.len := by
    rw [bytes, List.length_take]
    omega
  rw [conclude, verdict, hbytes]
  by_cases hshort : first.len < 4
  · rw [if_pos hshort, if_pos hshort]
    rfl
  have htake : (bytes first).take 4 = first.data.take 4 := by
    rw [bytes, List.take_take]
    congr 1
    omega
  rw [if_neg hshort, if_neg hshort, htake, unhex_eq]
  cases hexValue (first.data.take 4) with
  | none => rfl
  | some n =>
    dsimp only
    by_cases hn : 1 ≤ n ∧ n ≤ 1024
    · rw [if_neg (by omega), if_pos hn, Nat.add_comm n 4]
      by_cases hall : first.len < 4 + n
      · rw [if_pos hall, if_pos hall]
        rfl
      · have hname : ((bytes first).drop 4).take n = (first.data.drop 4).take n := by
          rw [bytes, List.drop_take, List.take_take]
          congr 1
          omega
        rw [if_neg hall, if_neg hall, hname, peerOf, hpeer]
        rfl
    · rw [if_pos (by omega), if_neg hn]

/-- The bytes `pre` have come in, and nothing else has happened than that packets were put
back. -/
def Collected (D : Daemon) (ss : Addr) (s : Asocket) (pre : List UInt8) (D' : Daemon) : Prop :=
  ∃ ps os, D' = { D with
      sockets := update D.sockets ss (some { s with pkts := ps }), trace := os ++ D.trace } ∧
    (∀ o ∈ os, o.isPut = true) ∧
    (ps = [] ∧ pre = [] ∨
      ∃ first, ps = [first] ∧ first.len ≤ first.data.length ∧ bytes first = pre)

variable {D D' : Daemon} {ss a : Addr} {s q : Asocket} {pre : List UInt8}

/-- The packet a new one is appended to has room for it. -/
lemma gather_eq {ps : List Apacket} {p : Apacket} (hp : p.len ≤ p.data.length)
    (hps : ps = [] ∧ pre = [] ∨
      ∃ first, ps = [first] ∧ first.len ≤ first.data.length ∧ bytes first = pre)
    (hmax : pre.length + p.len ≤ maxPayload) :
    ∃ first, gather { s with pkts := ps } p = some first ∧ first.len ≤ first.data.length ∧
      bytes first = pre ++ bytes p := by
  rcases hps with ⟨rfl, rfl⟩ | ⟨first, rfl, hlen, rfl⟩
  · exact ⟨p, rfl, hp, rfl⟩
  · have hfirst : (bytes first).length = first.len := by
      rw [bytes, List.length_take]
      omega
    rw [hfirst] at hmax
    refine ⟨_, if_neg (Nat.not_lt.mpr hmax), ?_, ?_⟩
    · rw [List.length_append, List.length_take, List.length_take]
      dsimp only
      omega
    · show ((bytes first) ++ bytes p).take (first.len + p.len) = _
      apply List.take_of_length_le
      rw [List.length_append, hfirst, bytes, List.length_take]
      omega

/-- One call parses what has come in so far, with the new packet. -/
lemma enqueue_eq {p : Apacket} (h : Collected D ss s pre D') (hpeer : s.peer = some a)
    (hp : p.len ≤ p.data.length) (hmax : pre.length + p.len ≤ maxPayload) :
    ∃ D'', Collected D ss s (pre ++ bytes p) D'' ∧
      D'.smartSocketEnqueue ss p = conclude ss a (pre ++ bytes p) D'' := by
  obtain ⟨ps, os, hD', hos, hps⟩ := h
  obtain ⟨first, hgather, hlen, hbytes⟩ := gather_eq (s := s) hp hps hmax
  have hsock : D'.sockets ss = some { s with pkts := ps } := by
    rw [hD']
    exact update_self ..
  have hput : ∃ os', (∀ o ∈ os', o.isPut = true) ∧ (if ps = [] then D' else D'.putApacket p) =
      { D with sockets := update D.sockets ss (some { s with pkts := ps }),
               trace := os' ++ D.trace } := by
    split
    · exact ⟨os, hos, hD'⟩
    · refine ⟨.put p.addr :: os, ?_, by rw [hD']; rfl⟩
      intro o ho
      rcases List.mem_cons.mp ho with rfl | ho
      · rfl
      · exact hos o ho
  obtain ⟨os', hos', hput⟩ := hput
  rw [smartSocketEnqueue, deref_bind hsock]
  dsimp only
  rw [hput, hgather]
  dsimp only
  refine ⟨_, ?_, (conclude_eq (s := { s with pkts := [first] }) hpeer hlen _).trans
    (congrArg (fun w => conclude ss a w _) hbytes)⟩
  refine ⟨[first], os', ?_, hos', .inr ⟨first, rfl, hlen, hbytes⟩⟩
  rw [setSocket, update_idem]

/-! ## Closing both sockets -/

/-- The client of a smart socket that is being closed, with nothing queued, is destroyed. -/
lemma close_client (hq : D.sockets a = some q) (hops : q.ops = .fd) (hpeer : q.peer = none)
    (hidle : q.pkts = [] ∧ q.exitOnClose = false)
    (hin : ∃ L, D.loop.fdeventRemove (.socket a) = .ok L) :
    ∃ D', closeSocket 1 a D = .ok D' ∧ D'.sockets = update D.sockets a none ∧
      D'.transports = D.transports ∧ sends D'.trace = sends D.trace := by
  obtain ⟨L, hL⟩ := hin
  have hdestroys : ∃ os, sends os = [] ∧ D.localSocketDestroy a = .ok { D with
      loop := L
      sockets := update D.sockets a none
      localSocketList := D.localSocketList.erase a
      localSocketClosingList := D.localSocketClosingList.erase a
      trace := os ++ D.trace } := by
    cases hd : D.localSocketDestroy a with
    | ok D' =>
      obtain ⟨L', os, hos, hL', rfl⟩ := (localSocketDestroy_of_remove hq).success hd
      cases hL.symm.trans hL'
      exact ⟨os, hos, rfl⟩
    | error e =>
      rcases (localSocketDestroy_of_remove hq).stop hd with ⟨-, hexit⟩ | hstop
      · rw [hidle.2] at hexit
        cases hexit
      · cases hL.symm.trans hstop
  obtain ⟨os, hos, hdestroy⟩ := hdestroys
  have hpeerless : D.closePeer (closeSocket 0) a = .ok D := by
    rw [closePeer, deref_bind hq, hpeer]
    rfl
  have hset : D.setSocket a { q with peer := none } = D :=
    setSocket_eq_self (by rw [hq, ← hpeer])
  have hclose : closeSocket 1 a D = D.localSocketDestroy a := by
    rw [closeSocket, deref_bind hq, hops]
    show (D.closePeer (closeSocket 0) a >>= _) = _
    rw [hpeerless]
    show (D.deref a >>= _) = _
    rw [deref_bind hq, hset, localSocketRetire, deref_bind hq, hidle.1]
    exact if_pos (Bool.or_true _)
  rw [hclose]
  exact ⟨_, hdestroy, rfl, rfl, by rw [sends_append, hos, List.nil_append]⟩

lemma Connected.ne (h : Connected D ss a s q) : a ≠ ss := by
  rintro rfl
  have hsame := h.socket.symm.trans h.client
  rw [Option.some.injEq] at hsame
  have hkind := h.kind
  rw [hsame, h.clientKind] at hkind
  cases hkind

/-- `fail:` closes the smart socket, and the client with it. -/
lemma fail_refused (h : Connected D ss a s q) {ps : List Apacket}
    (hsock : D'.sockets = update D.sockets ss (some { s with pkts := ps }))
    (hloop : D'.loop = D.loop) (htr : D'.transports = D.transports)
    (hsends : sends D'.trace = sends D.trace) :
    ∃ D'', D'.smartSocketFail ss = .ok (-1, D'') ∧ Refused D ss a D'' := by
  have hne := h.ne
  have hss : D'.sockets ss = some { s with pkts := ps } := by rw [hsock, update_self]
  have hq : D'.sockets a = some q := by rw [hsock, update_of_ne hne, h.client]
  obtain ⟨os, hos, hput⟩ := putApackets_eq (ps.take 1) D'
  set D₁ : Daemon := D'.putApackets (ps.take 1) with hD₁
  obtain ⟨D₂, hclose, hsock₂, htr₂, hsends₂⟩ := close_client
    (D := D₁.setSocket a { q with peer := none }) (a := a) (setSocket_sockets_self ..)
    h.clientKind rfl h.clientIdle (by
      rw [hput]
      show ∃ L, D'.loop.fdeventRemove _ = _
      rw [hloop]
      exact h.installed)
  have hss₁ : D₁.sockets ss = some { s with pkts := ps } := by
    rw [hput]
    exact hss
  have hq₁ : D₁.sockets a = some q := by
    rw [hput]
    exact hq
  have hpeer : D₁.closePeer (closeSocket 1) ss = .ok D₂ := by
    rw [closePeer, deref_bind hss₁, h.peer]
    show (D₁.deref a >>= _) = _
    rw [deref_bind hq₁]
    exact hclose
  have hrun : D'.close ss = .ok (D₂.freeSocket ss) := by
    rw [close, closeSocket, deref_bind hss, h.kind]
    show D'.smartSocketClose (closeSocket 1) ss = _
    rw [smartSocketClose, deref_bind hss]
    show (D₁.closePeer (closeSocket 1) ss >>= _) = _
    rw [hpeer]
    rfl
  have hall : (D₂.freeSocket ss).sockets = update (update D.sockets a none) ss none := by
    show update D₂.sockets ss none = _
    rw [hsock₂]
    show update (update (update D₁.sockets a _) a none) ss none = _
    rw [update_idem, hput]
    show update (update D'.sockets a none) ss none = _
    rw [hsock, update_comm hne, update_idem, update_comm hne.symm]
  refine ⟨D₂.freeSocket ss, ?_, ?_, ?_, ?_, ?_, ?_⟩
  · rw [smartSocketFail, hrun]
    rfl
  · rw [hall, update_self]
  · rw [hall, update_of_ne hne, update_self]
  · intro b hb hba
    rw [hall, update_of_ne hb, update_of_ne hba]
  · show D₂.transports = _
    rw [htr₂]
    show D₁.transports = _
    rw [hput]
    exact htr
  · show sends D₂.trace = _
    rw [hsends₂]
    show sends D₁.trace = _
    rw [hput]
    show sends (os ++ D'.trace) = _
    rw [sends_append, sends_puts hos, List.nil_append, hsends]

/-! ## Handing the client over -/

/-- A service name is short. -/
lemma length_name {w name : List UInt8} (h : verdict w = .request name) : name.length ≤ 1024 := by
  rw [verdict] at h
  split at h
  case isTrue => cases h
  cases hv : hexValue (w.take 4) with
  | none =>
    rw [hv] at h
    cases h
  | some n =>
    rw [hv] at h
    dsimp only at h
    split at h
    case isFalse => cases h
    case isTrue hn =>
    split at h
    case isTrue => cases h
    cases h
    refine Nat.le_trans (List.takeWhile_sublist _).length_le ?_
    rw [List.length_take]
    omega

/-- The `A_OPEN` of a client. -/
def openPacket (q : Asocket) (name : List UInt8) (addr : ℕ) : Apacket :=
  stamp {
    addr := addr
    msg := { command := aOpen, arg0 := q.id, dataLength := UInt32.ofNat (name.length + 1) }
    data := name ++ [0] }

lemma openPacket_payload {q : Asocket} {name : List UInt8} {addr : ℕ} (h : name.length ≤ 1024) :
    (openPacket q name addr).payload = name ++ [0] := by
  show (name ++ [0]).take (UInt32.ofNat (name.length + 1)).toNat = _
  apply List.take_of_length_le
  rw [List.length_append, List.length_singleton, UInt32.toNat_ofNat']
  omega

/-- `connect_to_remote`, with a transport that takes packets. -/
lemma connectToRemote_eq {t : TAddr} {x : Atransport} {name : List UInt8}
    (hq : D.sockets a = some q) (ht : q.transport = some t) (hx : D.transports t = some x)
    (hpair : D.holds x.transportSocket (.transportSocket t) = true)
    (hfd : D.holds x.fd (.transportFd t) = true)
    (hroom : D.config.hasRoom x.toInput.length = true) (hname : name.length ≤ 1024) :
    D.connectToRemote a name = .ok
      ((({ D with nextPacket := D.nextPacket + 1 } : Daemon).setTransport t
        { x with toInput := x.toInput ++ [openPacket q name D.nextPacket] }).emit
          (.sent t none (openPacket q name D.nextPacket))) := by
  have hmax : maxPayload = 4096 := rfl
  rw [connectToRemote, deref_bind hq]
  show (if maxPayload - 1 < name.length + 1 then _ else _) = _
  rw [if_neg (by omega), ht]
  show writePacket none _ t { D with nextPacket := D.nextPacket + 1 } = _
  have hx' : ({ D with nextPacket := D.nextPacket + 1 } : Daemon).transports t = some x := hx
  rw [writePacket, derefT_bind hx']
  exact (if_pos hpair).trans ((if_pos hfd).trans (if_pos hroom))

/-- The end of `smart_socket_enqueue` for a complete request. -/
lemma handOver_opened (h : Connected D ss a s q) {w name : List UInt8} {t : TAddr}
    (hD' : Collected D ss s w D') (hname : name.length ≤ 1024) (ht : Takes D t) :
    ∃ D'', D'.smartSocketHandOver ss a t name = .ok (1, D'') ∧ Opened D ss a q t name D'' := by
  have hne := h.ne
  obtain ⟨x, hx, hpair, hfd, hroom⟩ := ht
  obtain ⟨ps, os, rfl, hos, -⟩ := hD'
  set q' : Asocket := { q with ops := .fdNotify, peer := none, transport := some t } with hq'
  set D₁ : Daemon := setSocket a q' { D with
    sockets := update D.sockets ss (some { s with pkts := ps }), trace := os ++ D.trace } with hD₁
  have hconnect := connectToRemote_eq (D := D₁) (a := a) (q := q') (t := t) (x := x)
    (setSocket_sockets_self ..) rfl hx hpair hfd hroom hname
  set p := openPacket q' name D₁.nextPacket with hp
  set D₂ : Daemon := (({ D₁ with nextPacket := D₁.nextPacket + 1 } : Daemon).setTransport t
    { x with toInput := x.toInput ++ [p] }).emit (.sent t none p) with hD₂
  have hss : D₂.sockets ss = some { s with pkts := ps } := by
    show update (update D.sockets ss _) a _ ss = _
    rw [update_of_ne hne.symm, update_self]
  have hclient : Daemon.sockets { D with
      sockets := update D.sockets ss (some { s with pkts := ps }),
      trace := os ++ D.trace } a = some q := by
    show update D.sockets ss _ a = _
    rw [update_of_ne hne, h.client]
  obtain ⟨os', hos', hclose⟩ := closeSocket_smart_eq
    (D := D₂.setSocket ss { s with pkts := ps, peer := none }) (setSocket_sockets_self ..)
    h.kind rfl 1
  have hrun : smartSocketHandOver ss a t name { D with
      sockets := update D.sockets ss (some { s with pkts := ps }), trace := os ++ D.trace } =
      .ok (1, { D₂.setSocket ss { s with pkts := ps, peer := none } with
        sockets := update (D₂.setSocket ss { s with pkts := ps, peer := none }).sockets ss none,
        trace := os' ++ D₂.trace }) := by
    rw [smartSocketHandOver, deref_bind hclient]
    show (connectToRemote a name D₁ >>= _) = _
    rw [hconnect]
    show (D₂.deref ss >>= _) = _
    rw [deref_bind hss]
    show (closeSocket 2 ss (D₂.setSocket ss { s with pkts := ps, peer := none }) >>= _) = _
    rw [hclose]
    rfl
  have hall : update (D₂.setSocket ss { s with pkts := ps, peer := none }).sockets ss none =
      update (update D.sockets a (some q')) ss none := by
    show update (update (update (update D.sockets ss _) a _) ss _) ss none = _
    rw [update_idem, update_comm hne.symm, update_idem, update_comm hne]
  refine ⟨_, hrun, ?_, ?_, ?_, ⟨p, x, rfl, rfl, openPacket_payload hname, ?_, hx, rfl⟩⟩
  · exact (congrFun hall ss).trans (update_self ..)
  · refine (congrFun hall a).trans ?_
    rw [update_of_ne hne, update_self]
  · intro b hb hba
    refine (congrFun hall b).trans ?_
    rw [update_of_ne hb, update_of_ne hba]
  · show sends (os' ++ .sent t none p :: (os ++ D.trace)) = _
    rw [sends_append, hos', List.nil_append]
    show (t, p) :: sends (os ++ D.trace) = _
    rw [sends_append, sends_puts hos, List.nil_append]

/-! ## Any division into packets -/

lemma collected_start (h : Connected D ss a s q) : Collected D ss s [] D := by
  refine ⟨[], [], ?_, nofun, .inl ⟨rfl, rfl⟩⟩
  have hs : ({ s with pkts := [] } : Asocket) = s := by rw [← h.empty]
  rw [hs, ← h.socket, update_eq_self, List.nil_append]

lemma Collected.waiting (h : Collected D ss s pre D') : Waiting D ss s pre D' := by
  obtain ⟨ps, os, rfl, hos, hps⟩ := h
  refine ⟨⟨ps, update_self .., ?_⟩, fun b hb => update_of_ne hb .., rfl, ?_⟩
  · rcases hps with ⟨rfl, rfl⟩ | ⟨first, rfl, -, rfl⟩
    · rfl
    · exact List.append_nil _
  · show sends (os ++ D.trace) = _
    rw [sends_append, sends_puts hos, List.nil_append]

/-- What is done about a verdict is what the verdict asks for. -/
lemma conclude_parsed (h : Connected D ss a s q) {w : List UInt8} (hD' : Collected D ss s w D')
    (htakes : ∀ t, D.acquireOneTransport .any = .ok t → Takes D t) :
    Parsed D ss a s q w (conclude ss a w D') := by
  have hchoice : D'.acquireOneTransport .any = D.acquireOneTransport .any := by
    obtain ⟨ps, os, rfl, -⟩ := hD'
    apply acquireOneTransport_congr
    · rfl
    · rfl
  have hfail : ∀ E : Daemon, E.sockets = D'.sockets → E.loop = D'.loop →
      E.transports = D'.transports → sends E.trace = sends D'.trace →
      ∃ D'', E.smartSocketFail ss = .ok (-1, D'') ∧ Refused D ss a D'' := by
    intro E hsock hloop htr hsends
    obtain ⟨ps, os, rfl, hos, -⟩ := hD'
    refine fail_refused h hsock hloop htr (hsends.trans ?_)
    show sends (os ++ D.trace) = _
    rw [sends_append, sends_puts hos, List.nil_append]
  rw [Parsed, conclude]
  cases hv : verdict w with
  | waiting => exact ⟨D', rfl, hD'.waiting⟩
  | refused => exact hfail D' rfl rfl rfl rfl
  | request name =>
    dsimp only
    rw [hchoice]
    cases hc : D.acquireOneTransport .any with
    | error err =>
      obtain ⟨ws, os, hos, htold⟩ := sendfailmsg_eq a err D'
      dsimp only
      rw [htold]
      refine hfail _ rfl rfl rfl ?_
      show sends (os ++ D'.trace) = _
      rw [sends_append, hos, List.nil_append]
    | ok t => exact handOver_opened h hD' (length_name hv) (htakes t hc)

/-- Feeding packets behind the bytes `pre` that have come in already. -/
lemma feed_collected (h : Connected D ss a s q)
    (htakes : ∀ t, D.acquireOneTransport .any = .ok t → Takes D t) {ps : List Apacket}
    (hps : ∀ p ∈ ps, p.len ≤ p.data.length)
    (hmax : pre.length + (ps.flatMap bytes).length ≤ maxPayload)
    (hD' : Collected D ss s pre D') (hpre : verdict pre = .waiting) :
    Parsed D ss a s q (pre ++ ps.flatMap bytes) (feed ss ps D') := by
  induction ps generalizing pre D' with
  | nil =>
    rw [List.flatMap_nil, List.append_nil, Parsed, hpre]
    exact ⟨D', rfl, hD'.waiting⟩
  | cons p ps ih =>
    have hp := hps p List.mem_cons_self
    have hlen : (bytes p).length = p.len := by
      rw [bytes, List.length_take]
      omega
    rw [List.flatMap_cons, List.length_append, hlen] at hmax
    obtain ⟨D'', hD'', hcall⟩ := enqueue_eq hD' h.peer hp (by omega)
    have hparsed := conclude_parsed h hD'' htakes
    rw [List.flatMap_cons, ← List.append_assoc, feed, hcall]
    cases hv : verdict (pre ++ bytes p) with
    | waiting =>
      rw [conclude, hv]
      refine ih (fun p hp => hps p (List.mem_cons_of_mem _ hp)) ?_ hD'' hv
      rw [List.length_append, hlen]
      omega
    | refused =>
      rw [Parsed, hv] at hparsed
      obtain ⟨D₃, hD₃, hrefused⟩ := hparsed
      rw [Parsed, verdict_append (by rw [hv]; nofun), hv, hD₃]
      exact ⟨D₃, rfl, hrefused⟩
    | request name =>
      rw [Parsed, hv] at hparsed
      rw [Parsed, verdict_append (by rw [hv]; nofun), hv]
      dsimp only at hparsed ⊢
      split at hparsed
      all_goals
        obtain ⟨D₃, hD₃, hdone⟩ := hparsed
        rw [hD₃]
        exact ⟨D₃, rfl, hdone⟩

/-- Feeding any division of a byte string into packets comes to the verdict on the whole. -/
theorem feed_parsed (h : Connected D ss a s q)
    (htakes : ∀ t, D.acquireOneTransport .any = .ok t → Takes D t) (ps : List Apacket)
    (hps : ∀ p ∈ ps, p.len ≤ p.data.length)
    (hmax : (ps.flatMap bytes).length ≤ maxPayload) :
    Parsed D ss a s q (ps.flatMap bytes) (feed ss ps D) :=
  feed_collected h htakes hps (by rwa [List.length_nil, Nat.zero_add]) (collected_start h) rfl

/-- A client on descriptor 10 and a USB transport. -/
def oneClient : Daemon where
  loop :=
    { mem := fun k => if k = .socket 1 then { fd := 10, state := fdeActive } else {}
      listPending := []
      fdTable := fun n => if n = 10 then .fde (.socket 1) else .null
      fdTableMax := 256
      fill := fun _ => .null
      inUse := fun _ => true
      interest := fun _ => none }
  owner := fun n => if n = 20 then some (.transportFd 0) else some (.transportSocket 0)
  sockets := fun a =>
    if a = 0 then some { ops := .smart, peer := some 1 }
    else if a = 1 then some { ops := .fd, peer := some 0, id := 7, fd := 10 }
    else none
  transports := fun t =>
    if t = 0 then
      some { type := .usb, connectionState := .host, fd := 20, transportSocket := 21 }
    else none
  transportList := [0]

/-- `0005shell` in three packets. -/
theorem feed_parsed_shell :
    Parsed oneClient 0 1 { ops := .smart, peer := some 1 }
      { ops := .fd, peer := some 0, id := 7, fd := 10 } (str "0005shell")
      (feed 0 [{ addr := 0, len := 2, data := str "00" },
        { addr := 1, len := 4, data := str "05sh" },
        { addr := 2, len := 3, data := str "ell" }] oneClient) := by
  have hinstalled : ∃ L, oneClient.loop.fdeventRemove (.socket 1) = .ok L := ⟨_, rfl⟩
  have hconnected : Connected oneClient 0 1 { ops := .smart, peer := some 1 }
      { ops := .fd, peer := some 0, id := 7, fd := 10 } :=
    ⟨rfl, rfl, rfl, rfl, rfl, rfl, rfl, ⟨rfl, rfl⟩, hinstalled⟩
  refine feed_parsed hconnected ?_ [{ addr := 0, len := 2, data := str "00" },
    { addr := 1, len := 4, data := str "05sh" }, { addr := 2, len := 3, data := str "ell" }]
    (by decide) (by decide)
  intro t ht
  cases ht
  exact ⟨_, rfl, by decide, by decide, rfl⟩

end SmartRequest

end Adbd
