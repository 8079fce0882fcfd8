import Adbd.Model.Sockets

/-!
# The packet queue of a socket, with its pointers (`sockets.c`)

`local_socket_enqueue` and the `FDE_WRITE` branch of `local_socket_event_func` once more, one
level further down: packets are cells of a heap, chained through `next`, and the socket holds
`pkt_first` and `pkt_last`.  `Adbd.Model.Sockets` describes the same functions on the list that
the chain spells.

The machine is one socket with a descriptor: packets come in, its callback runs, its read
events are turned on and off, it is closed.  What the peer's `ready` does concerns neither the
queue nor the `fdevent`, so the peer is left out.  `linked`, `arrived`, `written` and `output` do
not exist in the program: how many packets have been linked, the payloads in the order they came,
the bytes of packets that `adb_write` accepted, and everything it accepted.
-/

namespace Adbd

open Syscall Daemon

/-! ## Cells -/

/-- An `apacket` on the heap. -/
structure PktCell where
  pkt : Apacket
  next : Option ℕ := none

structure PktQueue where
  /-- The packets that have not been given back. -/
  heap : ℕ → Option PktCell := fun _ => none
  pktFirst : Option ℕ := none
  pktLast : Option ℕ := none

namespace PktQueue

def cell (a : ℕ) (q : PktQueue) : Except Stop PktCell :=
  match q.heap a with
  | some c => .ok c
  | none => .error (.freedPacket a)

def setCell (a : ℕ) (c : PktCell) (q : PktQueue) : PktQueue :=
  { q with heap := Function.update q.heap a (some c) }

/-- `enqueue:` of `local_socket_enqueue`, up to the subscription. -/
def link (a : ℕ) (q : PktQueue) : Except Stop PktQueue := do
  let c ← q.cell a
  let q := q.setCell a { c with next := none }
  match q.pktFirst with
  | some _ =>
    match q.pktLast with
    | none => .error .nullPacket
    | some l => do
      let c ← q.cell l
      pure { q.setCell l { c with next := some a } with pktLast := some a }
  | none => pure { q with pktFirst := some a, pktLast := some a }

/-- `s->pkt_first=p->next; if(s->pkt_first==0)s->pkt_last=0; put_apacket(p);` -/
def unlinkFirst (a : ℕ) (c : PktCell) (q : PktQueue) : PktQueue :=
  { heap := Function.update q.heap a none
    pktFirst := c.next
    pktLast := if c.next.isNone then none else q.pktLast }

/-- The two nested loops of the `FDE_WRITE` branch, for at most `fuel` packets. -/
def drain : ℕ → List WriteResult → PktQueue →
    Except Stop (PktQueue × List UInt8 × WriteEnd × List WriteResult)
  | fuel, ws, q =>
    match q.pktFirst with
    | none => .ok (q, [], .done, ws)
    | some a =>
      match fuel with
      | 0 => .error .outOfFuel
      | fuel + 1 => do
        let c ← q.cell a
        match writeLoop c.pkt.remaining ws with
        | (out, .done, ws) => do
          let c := { c with pkt := advance c.pkt out.length }
          let (q, out', e, ws) ← drain fuel ws (q.unlinkFirst a c)
          pure (q, out ++ out', e, ws)
        | (out, e, ws) => pure (q.setCell a { c with pkt := advance c.pkt out.length }, out, e, ws)
termination_by structural fuel => fuel

end PktQueue

/-! ## The socket -/

structure FdSocket where
  queue : PktQueue := {}
  closing : Bool := false
  /-- `s->ready` and `s->close` are `local_socket_ready_notify` and
  `local_socket_close_notify`. -/
  notify : Bool := false
  loop : Loop FdeId
  linked : ℕ := 0
  arrived : List UInt8 := []
  written : List UInt8 := []
  output : List UInt8 := []

/-- `sendfailmsg`: the bytes that are accepted. -/
def failmsgBytes (reason : String) (ws : List WriteResult) : List UInt8 :=
  match writeFull (str "FAIL" ++ hex4 (str reason).length) ws with
  | (out, false, _) => out
  | (out, true, ws) => out ++ (writeFull (str reason) ws).1

namespace FdSocket

variable (k : FdeId)

/-- `s->close(s)` of a socket without a peer; `none` is a socket that was destroyed. -/
def close (ws : List WriteResult) (s : FdSocket) : Except Stop (Option FdSocket) := do
  let s := if s.notify then
      { s with notify := false, output := s.output ++ failmsgBytes "closed" ws }
    else s
  if s.closing || s.queue.pktFirst.isNone then pure none
  else do
    let L ← s.loop.fdeventDel k fdeRead
    pure (some { s with closing := true, loop := L })

/-- `s->ready(s)`. -/
def ready (ws : List WriteResult) (s : FdSocket) : Except Stop (Option FdSocket) := do
  let s := if s.notify then
      { s with notify := false, output := s.output ++ (writeSome (str "OKAY") ws).1.getD [] }
    else s
  let L ← s.loop.fdeventAdd k fdeRead
  pure (some { s with loop := L })

/-- `adb_write` accepted `out`. -/
def wrote (out : List UInt8) (s : FdSocket) : FdSocket :=
  { s with written := s.written ++ out, output := s.output ++ out }

/-- The end of `local_socket_enqueue`. -/
def linkPacket (p : Apacket) (s : FdSocket) : Except Stop (Option FdSocket) := do
  let q ← (s.queue.setCell p.addr { pkt := p }).link p.addr
  let L ← s.loop.fdeventAdd k fdeWrite
  pure (some { s with queue := q, loop := L, linked := s.linked + 1 })

/-- `local_socket_enqueue` of a packet that is not in the queue. -/
def enqueue (p : Apacket) (ws : List WriteResult) (s : FdSocket) :
    Except Stop (Option FdSocket) :=
  let p := { p with ptr := 0 }
  let s := { s with arrived := s.arrived ++ p.remaining }
  if s.queue.pktFirst.isSome then s.linkPacket k p
  else
    match writeLoop p.remaining ws with
    | (out, e, ws) =>
      match e with
      | .done => pure (some (s.wrote out))
      | .again => (s.wrote out).linkPacket k (advance p out.length)
      | .failed => (s.wrote out).close k ws

/-- The `FDE_WRITE` branch of `local_socket_event_func`. -/
def writable (ws : List WriteResult) (s : FdSocket) : Except Stop (Option FdSocket) := do
  let (q, out, e, ws) ← s.queue.drain s.linked ws
  let s := { s with queue := q }.wrote out
  match e with
  | .again => pure (some s)
  | .failed => s.close k ws
  | .done =>
    if s.closing then s.close k ws
    else do
      let L ← s.loop.fdeventDel k fdeWrite
      pure (some { s with loop := L })

end FdSocket

/-! ## Steps -/

inductive QueueOp
  | enqueue (p : Apacket) (ws : List WriteResult)
  | writable (ws : List WriteResult)
  | ready (ws : List WriteResult)
  | pause
  | close (ws : List WriteResult)

/-- One operation on a socket.  The packet is one that `get_apacket` has just handed out. -/
def queueStep (k : FdeId) : QueueOp → Option FdSocket →
    Except Stop (Option FdSocket)
  | _, none => .error .disabled
  | .enqueue p ws, some s =>
    if (s.queue.heap p.addr).isSome then .error .disabled else s.enqueue k p ws
  | .writable ws, some s => s.writable k ws
  | .ready ws, some s => s.ready k ws
  | .close ws, some s => s.close k ws
  | .pause, some s => do
    let L ← s.loop.fdeventDel k fdeRead
    pure (some { s with loop := L })

end Adbd
