import Adbd.Model.Close

/-!
# Data through sockets (`sockets.c`, `jdwp_service.c`)

`enqueue` and `ready` of every kind of socket, the creation of sockets, and the event function
of the sockets with a descriptor.  `enqueue` returns the source's result: 0 for "done, send
more", 1 for "wait for my `ready`", -1 for "the caller was closed".
-/

namespace Adbd

open Syscall

namespace Daemon

/-! ## JDWP process lists -/

/-- `snprintf("%d\n")` of a pid that is not negative. -/
def pidLine (pid : Int) : List UInt8 :=
  ((Nat.toDigits 10 pid.toNat).map fun c => UInt8.ofNat c.toNat) ++ [0x0a]

/-- `jdwp_process_list` into a buffer with `room` bytes left. -/
def jdwpProcessList : ℕ → List JdwpProcess → List UInt8
  | _, [] => []
  | room, proc :: procs =>
    if proc.pid < 0 then jdwpProcessList room procs
    else if room ≤ (pidLine proc.pid).length then []
    else pidLine proc.pid ++ jdwpProcessList (room - (pidLine proc.pid).length) procs

/-- `snprintf("%04x")`. -/
def hex4 (n : ℕ) : List UInt8 :=
  let digits := (Nat.toDigits 16 n).map fun c => UInt8.ofNat c.toNat
  List.replicate (4 - digits.length) 0x30 ++ digits

/-- `jdwp_process_list_msg`. -/
def jdwpProcessListMsg (bufferlen : ℕ) (procs : List JdwpProcess) : List UInt8 :=
  let list := jdwpProcessList (bufferlen - 4) procs
  (hex4 list.length).take 4 ++ list

/-! ## `enqueue` -/

/-- The packet after `n` of its bytes have been written. -/
def advance (p : Apacket) (n : ℕ) : Apacket := { p with ptr := p.ptr + n, len := p.len - n }

/-- The end of `local_socket_enqueue`: link the packet and wait for `FDE_WRITE`. -/
def linkPacket (a : Addr) (p : Apacket) (D : Daemon) : Except Stop (Int × Daemon) := do
  let s ← D.deref a
  let D := D.setSocket a { s with pkts := s.pkts ++ [p] }
  let D ← D.onLoop (Loop.fdeventAdd (.socket a) fdeWrite)
  pure (1, D)

/-- `local_socket_enqueue`. -/
def localSocketEnqueue (a : Addr) (p : Apacket) (D : Daemon) : Except Stop (Int × Daemon) := do
  let s ← D.deref a
  let p := { p with ptr := 0 }
  if s.pkts ≠ [] then (D.emit (.enqueued a p.remaining [])).linkPacket a p
  else
    match writeLoop p.remaining D.io.writes with
    | (out, e, ws) =>
      let D := { D with io := { D.io with writes := ws } }.emit (.enqueued a p.remaining out)
      match e with
      | .done => pure (0, D.putApacket p)
      | .again => D.linkPacket a (advance p out.length)
      | .failed => do
        let D ← (D.emit (.writeFailed a)).close a
        pure (1, D)

/-- The peer a socket's callback goes on to use. -/
def peerOf (a : Addr) (s : Asocket) : Except Stop Addr :=
  match s.peer with
  | some p => .ok p
  | none => .error (.nullPeer a)

/-- `remote_socket_enqueue`. -/
def remoteSocketEnqueue (r : Addr) (p : Apacket) (D : Daemon) : Except Stop (Int × Daemon) := do
  let s ← D.deref r
  let a ← peerOf r s
  let q ← D.deref a
  let D ← D.sendPacket (some r)
    { p with msg := { p.msg with
        command := aWrte
        arg0 := q.id
        arg1 := s.id
        dataLength := UInt32.ofNat p.len } } s.transport
  pure (1, D)

/-- `jdwp_socket_enqueue`: input is not expected. -/
def jdwpSocketEnqueue (a : Addr) (p : Apacket) (D : Daemon) : Except Stop (Int × Daemon) := do
  let D := D.putApacket p
  let s ← D.deref a
  let r ← peerOf a s
  let D ← D.close r
  pure (-1, D)

/-- `jdwp_tracker_enqueue`. -/
def jdwpTrackerEnqueue (a : Addr) (p : Apacket) (D : Daemon) : Except Stop (Int × Daemon) :=
  D.jdwpSocketEnqueue a p

/-! ## Smart sockets -/

/-- `unhex`, `none` standing for the result `0xffffffff` of a character that is no digit. -/
def unhex (bs : List UInt8) : Option ℕ :=
  bs.foldl (fun n c => do
    let n ← n
    let d ← (if 0x30 ≤ c ∧ c ≤ 0x39 then some (c.toNat - 0x30)
      else if 0x61 ≤ c ∧ c ≤ 0x66 then some (c.toNat - 0x61 + 10)
      else if 0x41 ≤ c ∧ c ≤ 0x46 then some (c.toNat - 0x41 + 10)
      else none)
    pure (16 * n + d)) (some 0)

/-- `qual_match`. -/
def qualMatch (toTest : Option (List UInt8)) (pre : List UInt8) (qual : Option (List UInt8))
    (sanitize : Bool) : Bool :=
  match toTest, qual with
  | none, q => q.getD [] = []
  | some [], q => q.getD [] = []
  | some _, none => false
  | some (c :: cs), some q =>
    let clean := fun ch : UInt8 =>
      if (0x41 ≤ ch ∧ ch ≤ 0x5a) ∨ (0x61 ≤ ch ∧ ch ≤ 0x7a) ∨ (0x30 ≤ ch ∧ ch ≤ 0x39) then ch
      else 0x5f
    c :: cs = pre ++ (if sanitize then q.map clean else q)

/-- What `acquire_one_transport` is asked for. -/
inductive TransportChoice
  | any
  | kind (k : TransportType)
  | serial (s : List UInt8)
  deriving DecidableEq, Repr

def choiceMatches (c : TransportChoice) (x : Atransport) : Bool :=
  match c with
  | .any => true
  | .kind k => x.type = k
  | .serial s =>
    x.serial = some s || x.devpath = some s ||
      qualMatch (some s) (str "product:") x.product false ||
      qualMatch (some s) (str "model:") x.model true ||
      qualMatch (some s) (str "device:") x.device false

/-- The loop of `acquire_one_transport`: the match, or the text of `error_out`. -/
def acquireLoop (c : TransportChoice) (D : Daemon) :
    List TAddr → Option TAddr → String → Option TAddr × String
  | [], result, err => (result, err)
  | t :: ts, result, err =>
    match D.transports t with
    | none => acquireLoop c D ts result err
    | some x =>
      if x.connectionState = .noperm then
        acquireLoop c D ts result "insufficient permissions for device"
      else if choiceMatches c x then
        match result with
        | some _ => (none, match c with
          | .any => "more than one device and emulator"
          | .kind .loc => "more than one emulator"
          | _ => "more than one device")
        | none => acquireLoop c D ts (some t) err
      else acquireLoop c D ts result err

/-- `acquire_one_transport` with `state = CS_ANY`. -/
def acquireOneTransport (c : TransportChoice) (D : Daemon) : Except String TAddr :=
  match D.acquireLoop c D.transportList none "device not found" with
  | (none, err) => .error err
  | (some t, _) =>
    if (D.transports t).any (·.connectionState = .offline) then .error "device offline"
    else .ok t

/-- `connect_to_remote`. -/
def connectToRemote (a : Addr) (destination : List UInt8) (D : Daemon) : Except Stop Daemon := do
  let s ← D.deref a
  let (p, D) := D.getApacket
  let len := destination.length + 1
  if maxPayload - 1 < len then .error .destinationOversized
  else
    D.sendPacket none
      { p with
        msg := { command := aOpen, arg0 := s.id, dataLength := UInt32.ofNat len }
        data := destination ++ [0] } s.transport

/-- `fail:` of `smart_socket_enqueue`. -/
def smartSocketFail (ss : Addr) (D : Daemon) : Except Stop (Int × Daemon) := do
  let D ← D.close ss
  pure (-1, D)

/-- The client of a smart socket is handed over to the transport: it waits, unpaired, for the
`A_OKAY` that answers its `A_OPEN`. -/
def smartSocketHandOver (ss a : Addr) (t : TAddr) (destination : List UInt8) (D : Daemon) :
    Except Stop (Int × Daemon) := do
  let q ← D.deref a
  let D := D.setSocket a { q with ops := .fdNotify, peer := none, transport := some t }
  let D ← D.connectToRemote a destination
  let s ← D.deref ss
  let D ← (D.setSocket ss { s with peer := none }).close ss
  pure (1, D)

/-- The packet in which a smart socket collects its request, after `p` has come in; `none` if
it would not fit. -/
def gather (s : Asocket) (p : Apacket) : Option Apacket :=
  match s.pkts with
  | [] => some p
  | first :: _ =>
    if maxPayload < first.len + p.len then none
    else some { first with
      len := first.len + p.len
      data := first.data.take first.len ++ p.data.take p.len }

/-- `smart_socket_enqueue`.  The transport it acquires is stored in the smart socket only to
be handed over, and an offline one is not returned in the first place. -/
def smartSocketEnqueue (ss : Addr) (p : Apacket) (D : Daemon) : Except Stop (Int × Daemon) := do
  let s ← D.deref ss
  let D := if s.pkts = [] then D else D.putApacket p
  match gather s p with
  | none => D.smartSocketFail ss
  | some first =>
    let s := { s with pkts := [first] }
    let D := D.setSocket ss s
    if first.len < 4 then pure (0, D)
    else
      match unhex (first.data.take 4) with
      | none => D.smartSocketFail ss
      | some len =>
        if len < 1 ∨ 1024 < len then D.smartSocketFail ss
        else if first.len < len + 4 then pure (0, D)
        else do
          let a ← peerOf ss s
          match D.acquireOneTransport .any with
          | .error err => (D.sendfailmsg a err).smartSocketFail ss
          | .ok t =>
            -- the byte after the request is overwritten with a NUL
            D.smartSocketHandOver ss a t (((first.data.drop 4).take len).takeWhile (· ≠ 0))

/-! ## The calls through the pointers -/

/-- `s->enqueue(s,p)`. -/
def enqueue (a : Addr) (p : Apacket) (D : Daemon) : Except Stop (Int × Daemon) := do
  let s ← D.deref a
  match s.ops with
  | .fd | .fdNotify => D.localSocketEnqueue a p
  | .remote => D.remoteSocketEnqueue a p
  | .smart => D.smartSocketEnqueue a p
  | .jdwp => D.jdwpSocketEnqueue a p
  | .tracker => D.jdwpTrackerEnqueue a p

/-- `local_socket_ready`. -/
def localSocketReady (a : Addr) (D : Daemon) : Except Stop Daemon :=
  D.onLoop (Loop.fdeventAdd (.socket a) fdeRead)

/-- `local_socket_ready_notify`. -/
def localSocketReadyNotify (a : Addr) (D : Daemon) : Except Stop Daemon := do
  let s ← D.deref a
  let D := D.setSocket a { s with ops := .fd }
  match writeSome (str "OKAY") D.io.writes with
  | (out, ws) =>
    ({ D with io := { D.io with writes := ws } }.emit
      (.told a (out.getD []))).localSocketReady a

/-- `remote_socket_ready`. -/
def remoteSocketReady (r : Addr) (D : Daemon) : Except Stop Daemon := do
  let s ← D.deref r
  let a ← peerOf r s
  let q ← D.deref a
  D.sendMsg (some r) { command := aOkay, arg0 := q.id, arg1 := s.id } [] s.transport

/-- `jdwp_socket_ready`. -/
def jdwpSocketReady (a : Addr) (D : Daemon) : Except Stop Daemon := do
  let s ← D.deref a
  let peer ← peerOf a s
  if s.pass = false then
    let (p, D) := D.getApacket
    let list := jdwpProcessList maxPayload D.jdwpList
    let (_, D) ← D.enqueue peer { p with len := list.length, data := list }
    let s ← D.deref a
    pure (D.setSocket a { s with pass := true })
  else D.close peer

/-- `jdwp_tracker_ready`. -/
def jdwpTrackerReady (a : Addr) (D : Daemon) : Except Stop Daemon := do
  let s ← D.deref a
  if s.needUpdate = false then pure D
  else
    let (p, D) := D.getApacket
    let D := D.setSocket a { s with needUpdate := false }
    let msg := jdwpProcessListMsg maxPayload D.jdwpList
    let peer ← peerOf a s
    let (_, D) ← D.enqueue peer { p with len := msg.length, data := msg }
    pure D

/-- `s->ready(s)`. -/
def ready (a : Addr) (D : Daemon) : Except Stop Daemon := do
  let s ← D.deref a
  match s.ops with
  | .fd => D.localSocketReady a
  | .fdNotify => D.localSocketReadyNotify a
  | .remote => D.remoteSocketReady a
  | .smart => pure D
  | .jdwp => D.jdwpSocketReady a
  | .tracker => D.jdwpTrackerReady a

/-! ## The event function -/

/-- What draining a queue did. -/
structure Drained where
  pkts : List Apacket
  written : List UInt8
  freed : List Apacket
  ended : WriteEnd
  writes : List WriteResult

/-- The two nested loops of the `FDE_WRITE` branch. -/
def drain : List Apacket → List WriteResult → Drained
  | [], ws => ⟨[], [], [], .done, ws⟩
  | p :: ps, ws =>
    match writeLoop p.remaining ws with
    | (out, .done, ws) =>
      let d := drain ps ws
      { d with written := out ++ d.written, freed := advance p out.length :: d.freed }
    | (out, e, ws) => ⟨advance p out.length :: ps, out, [], e, ws⟩

/-- The `FDE_WRITE` branch; the flag tells whether the function goes on to the next branch. -/
def localSocketWritable (a : Addr) (D : Daemon) : Except Stop (Bool × Daemon) := do
  let s ← D.deref a
  let d := drain s.pkts D.io.writes
  let D := { D.setSocket a { s with pkts := d.pkts } with
    io := { D.io with writes := d.writes } }.emit (.wrote a d.written)
  let D := D.putApackets d.freed
  match d.ended with
  | .again => pure (false, D)
  | .failed => do
    let D ← (D.emit (.writeFailed a)).close a
    pure (false, D)
  | .done =>
    if s.closing then do
      let D ← D.close a
      pure (false, D)
    else do
      let D ← D.onLoop (Loop.fdeventDel (.socket a) fdeWrite)
      let peer ← peerOf a s
      let D ← D.ready peer
      pure (true, D)

/-- The `FDE_READ` branch. -/
def localSocketReadable (a : Addr) (D : Daemon) : Except Stop Daemon := do
  let (p, D) := D.getApacket
  match readLoop maxPayload D.io.reads with
  | (bytes, eof, rs) =>
    let D := { D with io := { D.io with reads := rs } }.emit (.read a bytes)
    let s ← D.deref a
    match s.peer with
    | none =>
      let D := D.putApacket p
      if eof then D.close a else pure D
    | some peer =>
      if bytes = [] then
        let D := D.putApacket p
        if eof then D.close a else pure D
      else do
        let (r, D) ← D.enqueue peer { p with len := bytes.length, data := bytes }
        if r < 0 then pure D
        else do
          let D ← (if r = 0 then pure D
            else D.onLoop (Loop.fdeventDel (.socket a) fdeRead))
          if ((D.loop.mem (.socket a)).forceEof && r = 0) || eof then D.close a else pure D

/-- `local_socket_event_func`. -/
def localSocketEventFunc (ev : BitVec 16) (a : Addr) (D : Daemon) : Except Stop Daemon := do
  let (more, D) ← (if FlagWord.has ev fdeWrite then D.localSocketWritable a
    else pure (true, D))
  if more && FlagWord.has ev fdeRead then D.localSocketReadable a else pure D

/-! ## Creating sockets -/

/-- `create_local_socket`. -/
def createLocalSocket (fd : ℕ) (D : Daemon) : Except Stop (Addr × Daemon) := do
  let (a, D) := D.callocSocket { ops := .fd, fd := fd }
  let D ← D.installLocalSocket a
  let D ← D.onLoop (Loop.fdeventInstall (.socket a) fd)
  pure (a, D)

/-- `create_remote_socket`. -/
def createRemoteSocket (id : UInt32) (t : TAddr) (D : Daemon) : Except Stop (Addr × Daemon) := do
  let (r, D) := D.callocSocket { ops := .remote, id := id, transport := some t }
  let D ← D.addTransportDisconnect t r
  pure (r, D)

/-- `s->peer=create_remote_socket(id,t); s->peer->peer=s;` -/
def pairRemote (a : Addr) (id : UInt32) (t : TAddr) (D : Daemon) :
    Except Stop (Addr × Daemon) := do
  let (r, D) ← D.createRemoteSocket id t
  let s ← D.deref a
  let D := D.setSocket a { s with peer := some r }
  let q ← D.deref r
  pure (r, (D.setSocket r { q with peer := some a }).emit (.stream r a s.id id t))

/-- `create_jdwp_service_socket`. -/
def createJdwpServiceSocket (D : Daemon) : Except Stop (Addr × Daemon) := do
  let (a, D) := D.callocSocket { ops := .jdwp }
  let D ← D.installLocalSocket a
  pure (a, D)

/-- `create_jdwp_tracker_service_socket`: the new entry is linked behind the last one. -/
def createJdwpTrackerServiceSocket (D : Daemon) : Except Stop (Addr × Daemon) := do
  D.touchTrackers D.jdwpTrackersList.getLast?.toList
  let (a, D) := D.callocSocket { ops := .tracker, needUpdate := true }
  let D := { D with jdwpTrackersList := D.jdwpTrackersList ++ [a] }
  let D ← D.installLocalSocket a
  pure (a, D)

/-- `create_smart_socket` and `connect_to_smartsocket`. -/
def connectToSmartsocket (a : Addr) (D : Daemon) : Except Stop Daemon := do
  let (ss, D) := D.callocSocket { ops := .smart, peer := some a }
  let s ← D.deref a
  (D.setSocket a { s with peer := some ss }).ready a

end Daemon

end Adbd
