import Mathlib.Order.BooleanAlgebra.Set
import Adbd.Effects.Threads

/-!
# Elementary changes of the daemon's state

Every step of the daemon is a sequence of the elementary changes below; the files after this
one show it function by function, and each invariant is then proved once, for the changes.

A change is a relation between *moments*.  A moment is a state together with what a reader of
the code keeps in mind while inside a step: the sockets that are being built or taken apart
and may have inconsistent links (`orphans`), whether an `A_OKAY` has come in that nobody has
made use of (`credit`), the socket whose host is about to be sent one (`owed`), the transport
whose streams are being closed (`draining`), and the transport whose packet, or whose answer
from the framework, is being handled (`handling`).  Between steps all five are empty.

The changes carry the conditions under which the code makes them, as far as an invariant needs
them.  Some of them can only be told from the step as a whole: `e` is the event being
processed and `D₀` the state it started in.
-/

namespace Adbd

open FlagWord

structure Moment where
  d : Daemon
  orphans : Set Addr := ∅
  credit : Option UInt32 := none
  owed : Option Addr := none
  draining : Option TAddr := none
  handling : Option (TAddr × Option Apacket) := none

def FdeId.isAuth : FdeId → Bool
  | .auth _ => true
  | _ => false

/-! ## What a step delivers -/

/-- The callback `fdevent_subproc_event_func` makes, if it makes one: the socket's, the events,
and the read results left for it. -/
def Daemon.forced (io : Io) (D : Daemon) : Option (FdeId × BitVec 16 × List Syscall.ReadResult) :=
  if has (D.loop.mem .subproc).events fdeRead then
    match Syscall.readFull 4 io.reads with
    | (none, _) => none
    | (some bs, rs) =>
      let n := bs.foldr (fun b n => b.toNat + 256 * n) 0
      if D.loop.fdTableMax ≤ n then none
      else
        match D.loop.fdTable n with
        | .fde k =>
          if (D.loop.mem k).fd = n ∧ io.fionread = 0 ∧
              has (D.loop.mem k).state fdePending = false then
            some (k, (D.loop.mem k).events ||| fdeRead, rs)
          else none
        | _ => none
  else none

/-- The callback a step makes, the shell-exit handler aside: whose, with which events, and the
read results it gets to see. -/
def Daemon.delivered (e : Event) (D : Daemon) :
    Option (FdeId × BitVec 16 × List Syscall.ReadResult) :=
  match e.action, D.loop.listPending with
  | .dispatch, k :: _ =>
    if has (D.loop.mem k).state fdePending then
      if k = .subproc then D.forced e.io else some (k, (D.loop.mem k).events, e.io.reads)
    else none
  | _, _ => none

/-- The step delivers the framework's `OK` for `t`. -/
def FrameworkOk (e : Event) (D : Daemon) (t : TAddr) : Prop :=
  ∃ ev rs, D.delivered e = some (.auth t, ev, rs) ∧ has ev fdeRead = true ∧
    (Daemon.readSome 2 rs).1 = some (str "OK")

/-- The step delivers a read event without a write event to a socket that is flushing its
queue, and the read ends in an end of file or an error. -/
def CutsFlush (e : Event) (D : Daemon) (a : Addr) : Prop :=
  ∃ ev rs s, D.delivered e = some (.socket a, ev, rs) ∧ has ev fdeRead = true ∧
    has ev fdeWrite = false ∧ D.sockets a = some s ∧ s.closing = true ∧ s.pkts ≠ [] ∧
    (Daemon.readLoop maxPayload rs).2.1 = true

/-- The step delivers a write event to the socket, and a write of what is queued on it fails: it
returns 0, or an error other than `EAGAIN` and `EINTR`. -/
def FailsWrite (e : Event) (D : Daemon) (a : Addr) : Prop :=
  ∃ ev rs s, D.delivered e = some (.socket a, ev, rs) ∧ has ev fdeWrite = true ∧
    D.sockets a = some s ∧ (Daemon.drain s.pkts e.io.writes).ended = .failed

/-- The step delivers a read event to a socket that does not subscribe to it and belongs to a
stream, and there is something to read. -/
def ForcesRead (e : Event) (D : Daemon) (a : Addr) : Prop :=
  ∃ ev rs s r, D.delivered e = some (.socket a, ev, rs) ∧ has ev fdeRead = true ∧
    has (D.loop.mem (.socket a)).state fdeRead = false ∧ D.sockets a = some s ∧
    s.peer = some r ∧ (D.sockets r).any (·.ops = .remote) = true ∧
    (Daemon.readLoop maxPayload rs).1 ≠ []

/-- The step is an `input_thread` about to close the sockets of its transport, and the tracker
`a` is one of them. -/
def BypassesTracker (e : Event) (D : Daemon) (a : Addr) : Prop :=
  ∃ t x, e.action = .input t ∧ D.transports t = some x ∧ x.input = .closeAll ∧
    a ∈ D.localSocketList ∧ D.boundTo t a = true ∧ (D.sockets a).any (·.ops = .tracker) = true

/-- The step hands packet `p` of `t` to `handle_packet`. -/
def Handles (e : Event) (D : Daemon) (t : TAddr) (p : Apacket) : Prop :=
  ∃ ev rs x rest, D.delivered e = some (.transport t, ev, rs) ∧ has ev fdeRead = true ∧
    D.transports t = some x ∧ x.toMain = p :: rest

/-- The step forwards a public key of `t` to the framework. -/
def Forwards (e : Event) (D : Daemon) (t : TAddr) : Prop :=
  ∃ p key, Handles e D t p ∧ p.msg.command = aAuth ∧ p.msg.arg0 = adbAuthRsapublickey ∧
    D.frameworkFd.isSome = true ∧ Daemon.lastKeyByte p = some 0 ∧ cstr p.data = .ok key ∧
    (str "PK" ++ key).length < maxPayload ∧
    (Daemon.writeSome (str "PK" ++ key) e.io.writes).1.isSome = true

/-- The step removes the transport `t`. -/
def Removes (e : Event) (D : Daemon) (t : TAddr) : Prop :=
  ∃ ev rs rest, D.delivered e = some (.registration, ev, rs) ∧ has ev fdeRead = true ∧
    D.registration = (t, .remove) :: rest

/-- The step delivers a write event to the socket. -/
def Writes (e : Event) (D : Daemon) (a : Addr) : Prop :=
  ∃ ev rs, D.delivered e = some (.socket a, ev, rs) ∧ has ev fdeWrite = true

/-- The step hands packet `p` of `t`, which is online, to the socket `a`. -/
def Reaches (e : Event) (D : Daemon) (t : TAddr) (p : Apacket) (a : Addr) : Prop :=
  Handles e D t p ∧ (D.transports t).any (·.online) = true ∧
    D.findLocalSocket p.msg.arg1 = some a

/-- The step hands a packet to the socket `a`, and the descriptor does not take all of it. -/
def Blocks (e : Event) (D : Daemon) (a : Addr) : Prop :=
  ∃ t p, Reaches e D t p a ∧ p.msg.command = aWrte ∧
    (Daemon.writeLoop p.payload e.io.writes).2.1 = .again

/-- With `bs` appended to what the smart socket `q` has collected, its request is complete. -/
def Completes (q : Asocket) (bs : List UInt8) : Prop :=
  ∃ p first len, p.len = bs.length ∧ p.data = bs ∧ Daemon.gather q p = some first ∧
    4 ≤ first.len ∧ Daemon.unhex (first.data.take 4) = some len ∧ 1 ≤ len ∧ len ≤ 1024 ∧
    len + 4 ≤ first.len

/-- The step hands the client `a` of a smart socket over to a transport, with packets queued. -/
def HandsOver (e : Event) (D : Daemon) (a : Addr) : Prop :=
  ∃ ev rs s ss q, D.delivered e = some (.socket a, ev, rs) ∧ has ev fdeRead = true ∧
    has ev fdeWrite = false ∧ D.sockets a = some s ∧ s.pkts ≠ [] ∧ s.peer = some ss ∧
    D.sockets ss = some q ∧ q.ops = .smart ∧ Completes q (Daemon.readLoop maxPayload rs).1 ∧
    ∃ t, D.acquireOneTransport .any = .ok t

/-- The step closes the local socket `a`, which is `s`. -/
inductive ClosesLocal (e : Event) (D : Daemon) (a : Addr) (s : Asocket) : Prop
  | clse (t : TAddr) (p : Apacket) (h : Reaches e D t p a) (hcmd : p.msg.command = aClse)
  | wrte (t : TAddr) (p : Apacket) (h : Reaches e D t p a) (hcmd : p.msg.command = aWrte)
      (hops : s.ops.isFd = true) (hq : s.pkts = [])
      (hfail : (Daemon.writeLoop p.payload e.io.writes).2.1 = .failed)
  | write (ev : BitVec 16) (rs : List Syscall.ReadResult)
      (h : D.delivered e = some (.socket a, ev, rs)) (hev : has ev fdeWrite = true)
      (hfail : (Daemon.drain s.pkts e.io.writes).ended = .failed)
  | read (ev : BitVec 16) (rs : List Syscall.ReadResult)
      (h : D.delivered e = some (.socket a, ev, rs)) (hev : has ev fdeRead = true)
      (hdone : has ev fdeWrite = true → (Daemon.drain s.pkts e.io.writes).ended = .done)
      (heof : (Daemon.readLoop maxPayload rs).2.1 = true)
  | all (t : TAddr) (x : Atransport) (hact : e.action = .input t) (hx : D.transports t = some x)
      (hpc : x.input = .closeAll) (ha : a ∈ D.localSocketList) (hbound : D.boundTo t a = true)

/-- The step closes a local socket that is paired with a remote one. -/
def LocalClose (e : Event) (D : Daemon) : Prop :=
  ∃ a s r q, D.sockets a = some s ∧ s.peer = some r ∧ D.sockets r = some q ∧ q.ops = .remote ∧
    ClosesLocal e D a s

/-- The step delivers an `A_WRTE` to a socket of a stream that is another transport's, or has
another id on the other side. -/
def Misaddressed (e : Event) (D : Daemon) : Prop :=
  ∃ t p a s r q, Reaches e D t p a ∧ p.msg.command = aWrte ∧ D.sockets a = some s ∧
    s.peer = some r ∧ D.sockets r = some q ∧ q.ops = .remote ∧
    ¬(q.id = p.msg.arg0 ∧ q.transport = some t)

/-- The key confirmations and what ended them, newest first. -/
def authHistory (os : List Obs) : List Obs :=
  os.filter fun
    | .confirm _ | .authDropped _ | .frameworkConnected => true
    | _ => false

/-! ## Conditions of single changes -/

/-- The transport `t` can be sent a packet: it is being handled, or a stream on it exists, or
it is connected. -/
def Moment.MaySend (m : Moment) (t : TAddr) : Prop :=
  (∃ q, m.handling = some (t, q)) ∨
  (∃ r s, m.d.sockets r = some s ∧ s.ops = .remote ∧ s.transport = some t) ∨
  (t ∈ m.d.transportList ∧ ∃ x, m.d.transports t = some x ∧ x.connectionState ≠ .offline)

/-- A packet of `t` other than `A_SYNC` is being handled. -/
def Moment.Serving (m : Moment) (t : TAddr) : Prop :=
  ∃ p, m.handling = some (t, some p) ∧ p.msg.command ≠ aSync

/-- While an `A_SYNC` is handled, the packet is its echo. -/
def Moment.Echoes (m : Moment) (t : TAddr) (p : Apacket) : Prop :=
  ∀ u q, m.handling = some (u, some q) → q.msg.command = aSync → m.d.config.host = false →
    u = t ∧ p = stamp q

/-- The remote socket `r` of `t` and its peer have been paired under these ids. -/
def Known (D : Daemon) (r : Addr) (l rid : UInt32) (t : TAddr) : Prop :=
  ∃ a, .stream r a l rid t ∈ D.trace

/-- What a packet that is no `A_WRTE` and no stream's `A_OKAY` is about: on behalf of a remote
socket it is its last, an `A_CLSE`. -/
def Moment.About (e : Event) (D₀ : Daemon) (m : Moment) (via : Option Addr) (p : Apacket)
    (t : TAddr) : Prop :=
  match via with
  | none => (p.msg.command = aClse → .refused t p.msg.arg1 ∈ m.d.trace) ∧ m.Echoes t p
  | some r => r ∈ m.orphans ∧
      (∃ q, m.d.sockets r = some q ∧ q.ops = .remote ∧ q.transport = some t) ∧
      p.msg.command = aClse ∧ (Known m.d r p.msg.arg0 p.msg.arg1 t ∨ LocalClose e D₀)

/-- The payload of an `A_WRTE` is about to be enqueued on `a`, and nothing else has happened in
the step. -/
def Delivers (e : Event) (D₀ : Daemon) (m : Moment) (a : Addr) : Prop :=
  ∃ t p, Reaches e D₀ t p a ∧ p.msg.command = aWrte ∧ m.d.trace = .received t p :: D₀.trace ∧
    m.d.sockets = D₀.sockets

/-- The socket `a` was created in this step, and nothing has been done with it. -/
structure Fresh (D₀ : Daemon) (m : Moment) (a : Addr) (s : Asocket) : Prop where
  orphan : a ∈ m.orphans
  unowed : m.owed = none
  addr : D₀.nextAddr ≤ a
  pkts : s.pkts = []
  fde : s.ops.isFd = true → (m.d.loop.mem (.socket a)).state = fdeActive ∧
    (m.d.loop.mem (.socket a)).events = 0#16
  trace : ∃ t p, m.d.trace = .received t p :: D₀.trace

/-- The fields of a transport that `send_auth_request` and the like assign. -/
def Atransport.Tweaks (x x' : Atransport) : Prop :=
  x' = { x with token := x'.token, failedAuthAttempts := x'.failedAuthAttempts }

/-- The packet is an `A_WRTE` of the stream of `r`, whose other end is `s`. -/
structure Moment.SendsTo (m : Moment) (t : TAddr) (x : Atransport) (r : Addr) (q : Asocket)
    (p : Apacket) (s : Asocket) : Prop where
  live : m.d.sockets r = some q
  remote : q.ops = .remote
  transport : q.transport = some t
  alive : m.d.transports t = some x
  open_ : m.d.pairOpen t x = true
  command : p.msg.command = aWrte
  arg0 : p.msg.arg0 = s.id
  arg1 : p.msg.arg1 = q.id

/-- The socket may be destroyed: nothing is left to write, a write of what is queued fails, or the
step cuts the flush. -/
def MayFree (e : Event) (D₀ : Daemon) (a : Addr) (s : Asocket) : Prop :=
  s.pkts = [] ∨ FailsWrite e D₀ a ∨ CutsFlush e D₀ a

/-- History that goes with no change of the state. -/
def Noted (m : Moment) : Obs → Prop
  | .put _ => True
  | .told _ _ => True
  | .writeFailed _ => True
  | .refused _ _ => True
  -- a packet that could not be written: the socket is being closed
  | .enqueued a _ _ => a ∈ m.orphans
  -- what is read goes to no stream
  | .read a bs => m.orphans = ∅ ∧ ∃ s, m.d.sockets a = some s ∧
      (bs = [] ∨ ∀ r q, s.peer = some r → m.d.sockets r = some q → q.ops ≠ .remote)
  | _ => False

/-! ## The changes -/

/-- The elementary changes made while processing `e` from `D₀`. -/
inductive Effect (e : Event) (D₀ : Daemon) : Moment → Moment → Prop
  -- bookkeeping
  | env (m : Moment) (io : Io) (n : ℕ) :
    Effect e D₀ m { m with d := { m.d with io := io, nextPacket := n } }
  | note (m : Moment) (o : Obs) (h : Noted m o) : Effect e D₀ m { m with d := m.d.emit o }
  | forget (m : Moment) : Effect e D₀ m { m with credit := none }
  | waive (m : Moment) (a : Addr) (s : Asocket) (hs : m.d.sockets a = some s)
      (howed : m.owed = some a)
      (h : ∀ r q, s.peer = some r → m.d.sockets r = some q → q.ops ≠ .remote) :
    Effect e D₀ m { m with owed := none }
  | finish (m : Moment)
      (hecho : ∀ t p, m.handling = some (t, some p) → p.msg.command = aSync →
        m.d.config.host = false → .sent t none (stamp p) ∈ m.d.trace) :
    Effect e D₀ m { m with handling := none, credit := none }
  -- a packet comes in, a packet goes out
  | receive (m : Moment) (t : TAddr) (x : Atransport) (p : Apacket) (rest : List Apacket)
      (hx : m.d.transports t = some x) (hp : x.toMain = p :: rest) (hidle : m.handling = none) :
    Effect e D₀ m { m with
      d := (m.d.setTransport t { x with toMain := rest }).emit (.received t p)
      handling := some (t, some p)
      credit := if p.msg.command = aOkay then some p.msg.arg1 else none }
  | send (m : Moment) (via : Option Addr) (p : Apacket) (t : TAddr) (x : Atransport)
      (hx : m.d.transports t = some x) (hmay : m.MaySend t) (hopen : m.d.pairOpen t x = true)
      (habout : m.About e D₀ via p t) (hcmd : p.msg.command ≠ aWrte)
      (hsync : p.isFinalSync = true → ∃ q, m.handling = some (t, some q) ∧
        q.isFinalSync = true ∧ x.connectionState = .offline ∧ x.disconnects = []) :
    Effect e D₀ m { m with
      d := (m.d.setTransport t { x with toInput := x.toInput ++ [p] }).emit (.sent t via p) }
  | okay (m : Moment) (a r : Addr) (s q : Asocket) (p : Apacket) (t : TAddr) (x : Atransport)
      (ha : a ∉ m.orphans) (hs : m.d.sockets a = some s) (hq : m.d.sockets r = some q)
      (hp : s.peer = some r) (hr : q.ops = .remote) (hx : m.d.transports t = some x)
      (hmay : m.MaySend t) (hopen : m.d.pairOpen t x = true) (howed : m.owed = some a)
      (hcmd : p.msg.command = aOkay) (hid : p.msg.arg0 = s.id)
      (hdest : p.msg.arg1 = q.id ∧ q.transport = some t ∨ Misaddressed e D₀ ∧ m.Serving t) :
    Effect e D₀ m { m with
      d := (m.d.setTransport t { x with toInput := x.toInput ++ [p] }).emit (.sent t (some r) p)
      owed := none }
  -- the state of a connection
  | tweak (m : Moment) (t : TAddr) (x x' : Atransport) (hx : m.d.transports t = some x)
      (h : x.Tweaks x') : Effect e D₀ m { m with d := m.d.setTransport t x' }
  | offline (m : Moment) (t : TAddr) (x : Atransport) (hx : m.d.transports t = some x) :
    Effect e D₀ m { m with d := m.d.setTransport t { x with connectionState := .offline } }
  | down (m : Moment) (t : TAddr) (x : Atransport) (hx : m.d.transports t = some x)
      (hidle : m.draining = none) :
    Effect e D₀ m { m with
      d := m.d.setTransport t { x with online := false }
      draining := some t }
  | drainedAll (m : Moment) (t : TAddr) (x : Atransport) (hx : m.d.transports t = some x)
      (ht : m.draining = some t) (h : x.disconnects = []) :
    Effect e D₀ m { m with draining := none }
  | up (m : Moment) (t : TAddr) (x : Atransport) (hx : m.d.transports t = some x)
      (hserve : m.Serving t)
      (hopen : (m.d.config.host || !m.d.config.authEnabled) = true) :
    Effect e D₀ m { m with d := m.d.setTransport t { x with online := true } }
  | verified (m : Moment) (t : TAddr) (x : Atransport) (hx : m.d.transports t = some x)
      (hidle : m.handling = none) (hok : FrameworkOk e D₀ t) :
    Effect e D₀ m { m with
      d := (m.d.emit (.verified t)).setTransport t { x with online := true }
      handling := some (t, none) }
  | banner (m : Moment) (t : TAddr) (x : Atransport) (text : List UInt8)
      (hx : m.d.transports t = some x) (hserve : m.Serving t) :
    Effect e D₀ m { m with d := m.d.setTransport t (Daemon.parseBanner text x) }
  -- taking sockets apart
  | sever (m : Moment) (a p : Addr) (s : Asocket) (hs : m.d.sockets a = some s)
      (hp : s.peer = some p) (ha : a ∉ m.orphans) :
    Effect e D₀ m { m with orphans := insert a (insert p m.orphans) }
  | single (m : Moment) (a : Addr) (s : Asocket) (hs : m.d.sockets a = some s)
      (hp : s.peer = none) : Effect e D₀ m { m with orphans := insert a m.orphans }
  | unpeer (m : Moment) (a : Addr) (s : Asocket) (hs : m.d.sockets a = some s)
      (ha : a ∈ m.orphans) :
    Effect e D₀ m { m with d := m.d.setSocket a { s with peer := none } }
  | unname (m : Moment) (a : Addr) (s : Asocket) (hs : m.d.sockets a = some s)
      (hl : a ∈ m.d.localSocketList ∨ a ∈ m.d.localSocketClosingList) (ha : a ∈ m.orphans) :
    Effect e D₀ m { m with
      d := { m.d.setSocket a { s with id := 0 } with
        localSocketList := m.d.localSocketList.erase a
        localSocketClosingList := m.d.localSocketClosingList.erase a } }
  | uninstall (m : Moment) (a : Addr) (L : Loop FdeId) (hs : (m.d.sockets a).isSome)
      (ha : a ∈ m.orphans) (h : Loop.RemoveSpec (.socket a) m.d.loop L) :
    Effect e D₀ m { m with d := { m.d with loop := L } }
  | destroy (m : Moment) (a : Addr) (s : Asocket) (hs : m.d.sockets a = some s)
      (hfree : MayFree e D₀ a s) :
    Effect e D₀ m { m with d := m.d.emit (.destroyed a s.queued) }
  | free (m : Moment) (a : Addr) (s : Asocket) (hs : m.d.sockets a = some s)
      (ha : a ∈ m.orphans) (hops : s.ops ≠ .remote) (hl : a ∉ m.d.localSocketList)
      (hc : a ∉ m.d.localSocketClosingList) (hin : ¬m.d.loop.Installed (.socket a))
      (hfree : s.closing = true → MayFree e D₀ a s)
      (htr : s.ops = .tracker → BypassesTracker e D₀ a) :
    Effect e D₀ m { m with d := m.d.freeSocket a, orphans := m.orphans \ {a} }
  | freeTracker (m : Moment) (a : Addr) (s : Asocket) (hs : m.d.sockets a = some s)
      (ha : a ∈ m.orphans) (hops : s.ops = .tracker) (hl : a ∉ m.d.localSocketList)
      (hc : a ∉ m.d.localSocketClosingList) (hin : ¬m.d.loop.Installed (.socket a))
      (hclosing : s.closing = false) :
    Effect e D₀ m { m with
      d := { m.d.freeSocket a with jdwpTrackersList := m.d.jdwpTrackersList.erase a }
      orphans := m.orphans \ {a} }
  | dropRemote (m : Moment) (r : Addr) (s : Asocket) (t : TAddr) (x : Atransport)
      (hs : m.d.sockets r = some s) (hr : r ∈ m.orphans) (hops : s.ops = .remote)
      (ht : s.transport = some t) (hx : m.d.transports t = some x) :
    Effect e D₀ m { m with
      d := (m.d.setTransport t { x with disconnects := x.disconnects.erase r }).freeSocket r
      orphans := m.orphans \ {r} }
  | retire (m : Moment) (a : Addr) (s : Asocket) (i : UInt32) (ev : BitVec 16) (L : Loop FdeId)
      (hs : m.d.sockets a = some s) (ha : a ∈ m.orphans) (hops : s.ops.isFd = true)
      (hp : s.peer = none) (hclosing : s.closing = false) (hq : s.pkts ≠ [])
      (hin : m.d.loop.Installed (.socket a))
      (hset : Loop.SetSpec (.socket a) ev m.d.loop L) (hev : has ev 0x00fc#16 = false)
      (hread : has ev fdeRead = false) :
    Effect e D₀ m { m with
      d := { m.d.setSocket a { s with closing := true, id := i } with
        loop := L
        localSocketList := m.d.localSocketList.erase a
        localSocketClosingList := m.d.localSocketClosingList.erase a ++ [a] }.emit
          (.closing a s.queued)
      orphans := m.orphans \ {a} }
  -- building sockets
  | createFd (m : Moment) (n : ℕ) (L : Loop FdeId)
      (hfirst : m.d.localSocketNextId = D₀.localSocketNextId)
      (hown : m.d.holds n (.socket m.d.nextAddr) = true)
      (h : (m.d.loop.setMem (.socket m.d.nextAddr) {}).fdeventInstall (.socket m.d.nextAddr) n =
        .ok L) :
    Effect e D₀ m { m with
      d := { m.d with
        sockets := Function.update m.d.sockets m.d.nextAddr
          (some { ops := .fd, fd := n, id := m.d.localSocketNextId })
        nextAddr := m.d.nextAddr + 1
        localSocketNextId := m.d.localSocketNextId + 1
        localSocketList := m.d.localSocketList ++ [m.d.nextAddr]
        loop := L }
      orphans := insert m.d.nextAddr m.orphans }
  | createJdwp (m : Moment) (hfirst : m.d.localSocketNextId = D₀.localSocketNextId) :
    Effect e D₀ m { m with
      d := { m.d with
        sockets := Function.update m.d.sockets m.d.nextAddr
          (some { ops := .jdwp, id := m.d.localSocketNextId })
        nextAddr := m.d.nextAddr + 1
        localSocketNextId := m.d.localSocketNextId + 1
        localSocketList := m.d.localSocketList ++ [m.d.nextAddr]
        loop := m.d.loop.setMem (.socket m.d.nextAddr) {} }
      orphans := insert m.d.nextAddr m.orphans }
  | createTracker (m : Moment) (hfirst : m.d.localSocketNextId = D₀.localSocketNextId) :
    Effect e D₀ m { m with
      d := { m.d with
        sockets := Function.update m.d.sockets m.d.nextAddr
          (some { ops := .tracker, needUpdate := true, id := m.d.localSocketNextId })
        nextAddr := m.d.nextAddr + 1
        localSocketNextId := m.d.localSocketNextId + 1
        localSocketList := m.d.localSocketList ++ [m.d.nextAddr]
        jdwpTrackersList := m.d.jdwpTrackersList ++ [m.d.nextAddr]
        loop := m.d.loop.setMem (.socket m.d.nextAddr) {} }
      orphans := insert m.d.nextAddr m.orphans }
  | accept (m : Moment) (a : Addr) (s : Asocket) (hs : m.d.sockets a = some s)
      (ha : a ∈ m.orphans) (hp : s.peer = none) (hops : s.ops = .fd)
      (hclosing : s.closing = false) (hl : a ∈ m.d.localSocketList)
      (hin : m.d.loop.Installed (.socket a)) :
    Effect e D₀ m { m with
      d := { m.d with
        sockets := Function.update (Function.update m.d.sockets m.d.nextAddr
          (some { ops := .smart, peer := some a })) a (some { s with peer := some m.d.nextAddr })
        nextAddr := m.d.nextAddr + 1
        loop := m.d.loop.setMem (.socket m.d.nextAddr) {} }
      orphans := m.orphans \ {a} }
  | pair (m : Moment) (a : Addr) (s : Asocket) (id : UInt32) (t : TAddr) (x : Atransport)
      (hs : m.d.sockets a = some s) (hp : s.peer = none) (hclosing : s.closing = false)
      (hl : a ∈ m.d.localSocketList)
      (hin : s.ops.isFd = true → m.d.loop.Installed (.socket a))
      (hnew : a ∈ m.orphans → s.ops.isFd = true →
        has (m.d.loop.mem (.socket a)).state fdeRead = false)
      (hx : m.d.transports t = some x) (hserve : m.Serving t) (honline : x.online = true)
      (opened : Bool) (hopened : opened = true → Fresh D₀ m a s) :
    Effect e D₀ m { m with
      d := { m.d with
        sockets := Function.update (Function.update m.d.sockets m.d.nextAddr
          (some { ops := .remote, id := id, transport := some t, peer := some a })) a
          (some { s with peer := some m.d.nextAddr })
        nextAddr := m.d.nextAddr + 1
        loop := m.d.loop.setMem (.socket m.d.nextAddr) {}
        transports := Function.update m.d.transports t
          (some { x with disconnects := x.disconnects ++ [m.d.nextAddr] })
        trace := (if opened then [.opened m.d.nextAddr a] else []) ++
          .stream m.d.nextAddr a s.id id t :: m.d.trace }
      orphans := m.orphans \ {a}
      credit := some s.id
      owed := if opened then some a else m.owed }
  | handOver (m : Moment) (a : Addr) (s : Asocket) (t : TAddr) (hs : m.d.sockets a = some s)
      (ha : a ∈ m.orphans) (hops : s.ops = .fd) (hclosing : s.closing = false)
      (hl : a ∈ m.d.localSocketList) (hin : m.d.loop.Installed (.socket a)) :
    Effect e D₀ m { m with
      d := m.d.setSocket a { s with ops := .fdNotify, peer := none, transport := some t } }
  | await (m : Moment) (a : Addr) (s : Asocket) (ev : BitVec 16) (L : Loop FdeId)
      (hs : m.d.sockets a = some s) (ha : a ∈ m.orphans) (hops : s.ops = .fdNotify)
      (hp : s.peer = none) (hclosing : s.closing = false) (hl : a ∈ m.d.localSocketList)
      (hin : m.d.loop.Installed (.socket a)) (hset : Loop.SetSpec (.socket a) ev m.d.loop L)
      (hev : has ev 0x00fc#16 = false) (hread : has ev fdeRead = false)
      (hevents : has (m.d.loop.mem (.socket a)).events fdeRead = false)
      (hwrite : has ev fdeWrite = has (m.d.loop.mem (.socket a)).state fdeWrite)
      (hlate : s.pkts ≠ [] → HandsOver e D₀ a) :
    Effect e D₀ m { m with d := { m.d with loop := L }, orphans := m.orphans \ {a} }
  -- data and subscriptions
  | answered (m : Moment) (a : Addr) (s : Asocket) (hs : m.d.sockets a = some s)
      (hops : s.ops = .fdNotify) :
    Effect e D₀ m { m with d := m.d.setSocket a { s with ops := .fd } }
  | exits (m : Moment) (a : Addr) (s : Asocket) (hs : m.d.sockets a = some s) :
    Effect e D₀ m { m with d := m.d.setSocket a { s with exitOnClose := true } }
  | gather (m : Moment) (a : Addr) (s : Asocket) (ps : List Apacket)
      (hs : m.d.sockets a = some s) (hops : s.ops = .smart) (hclosing : s.closing = false) :
    Effect e D₀ m { m with d := m.d.setSocket a { s with pkts := ps } }
  | enqueueDone (m : Moment) (a : Addr) (s : Asocket) (bs : List UInt8) (ha : a ∉ m.orphans)
      (hs : m.d.sockets a = some s) (hops : s.ops.isFd = true) (hclosing : s.closing = false)
      (hq : s.pkts = []) (howed : m.owed = none) (hcause : Delivers e D₀ m a) :
    Effect e D₀ m { m with d := m.d.emit (.enqueued a bs bs), owed := some a }
  | enqueueLink (m : Moment) (a : Addr) (s : Asocket) (p : Apacket) (out : List UInt8)
      (ev : BitVec 16) (L : Loop FdeId) (ha : a ∉ m.orphans) (hs : m.d.sockets a = some s)
      (hops : s.ops.isFd = true) (hclosing : s.closing = false)
      (hout : s.pkts ≠ [] ∧ out = [] ∨ s.pkts = [] ∧ p.remaining ≠ [])
      (hin : m.d.loop.Installed (.socket a)) (hset : Loop.SetSpec (.socket a) ev m.d.loop L)
      (hev : has ev 0x00fc#16 = false)
      (hread : has ev fdeRead = has (m.d.loop.mem (.socket a)).state fdeRead)
      (hcause : Delivers e D₀ m a) (hblock : s.pkts = [] → Blocks e D₀ a) :
    Effect e D₀ m { m with
      d := { (m.d.setSocket a { s with pkts := s.pkts ++ [p] }).emit
          (.enqueued a (out ++ p.remaining) out) with loop := L } }
  | drained (m : Moment) (a : Addr) (s : Asocket) (ps : List Apacket) (out : List UInt8)
      (ha : a ∉ m.orphans) (hs : m.d.sockets a = some s) (hops : s.ops.isFd = true)
      (h : out ++ ps.flatMap Apacket.remaining = s.queued) (hlen : ps.length ≤ s.pkts.length)
      (hstuck : ∀ p ∈ ps.head?, p.remaining ≠ []) (hleft : ps = [] → s.closing = true) :
    Effect e D₀ m { m with
      d := (m.d.setSocket a { s with pkts := ps }).emit (.wrote a out) }
  | flushed (m : Moment) (a : Addr) (s : Asocket) (ev : BitVec 16) (L : Loop FdeId)
      (ha : a ∉ m.orphans) (hs : m.d.sockets a = some s) (hops : s.ops.isFd = true)
      (hclosing : s.closing = false) (hin : m.d.loop.Installed (.socket a))
      (hset : Loop.SetSpec (.socket a) ev m.d.loop L) (hev : has ev 0x00fc#16 = false)
      (hread : has ev fdeRead = has (m.d.loop.mem (.socket a)).state fdeRead)
      (hwrite : has ev fdeWrite = false)
      (hevents : has (m.d.loop.mem (.socket a)).events fdeWrite = false)
      (howed : m.owed = none) (hcause : Writes e D₀ a) (hbefore : D₀.sockets a = some s) :
    Effect e D₀ m { m with
      d := { (m.d.setSocket a { s with pkts := [] }).emit (.wrote a s.queued) with loop := L }
      owed := some a }
  | subscribe (m : Moment) (a : Addr) (s : Asocket) (ev : BitVec 16) (L : Loop FdeId)
      (hs : m.d.sockets a = some s) (hops : s.ops.isFd = true)
      (hin : m.d.loop.Installed (.socket a)) (hset : Loop.SetSpec (.socket a) ev m.d.loop L)
      (hev : has ev 0x00fc#16 = false) (hread : has ev fdeRead = true)
      (hsmart : ∃ r q, s.peer = some r ∧ m.d.sockets r = some q ∧ q.ops = .smart)
      (hwrite : has ev fdeWrite = has (m.d.loop.mem (.socket a)).state fdeWrite) :
    Effect e D₀ m { m with d := { m.d with loop := L } }
  | grant (m : Moment) (a : Addr) (s : Asocket) (ev : BitVec 16) (L : Loop FdeId)
      (hs : m.d.sockets a = some s) (hops : s.ops.isFd = true)
      (hin : m.d.loop.Installed (.socket a)) (hset : Loop.SetSpec (.socket a) ev m.d.loop L)
      (hev : has ev 0x00fc#16 = false) (hread : has ev fdeRead = true)
      (hwrite : has ev fdeWrite = has (m.d.loop.mem (.socket a)).state fdeWrite)
      (hp : s.peer ≠ none) (hcredit : m.credit = some s.id) :
    Effect e D₀ m { m with d := { m.d with loop := L }, credit := none }
  -- sending a stream's data
  | wrteRead (m : Moment) (a r : Addr) (s q : Asocket) (p : Apacket) (t : TAddr)
      (x : Atransport) (ev : BitVec 16) (L : Loop FdeId) (ha : a ∉ m.orphans)
      (hs : m.d.sockets a = some s) (hops : s.ops.isFd = true) (hp : s.peer = some r)
      (hto : m.SendsTo t x r q p s) (hin : m.d.loop.Installed (.socket a))
      (hset : Loop.SetSpec (.socket a) ev m.d.loop L)
      (hev : has ev 0x00fc#16 = false) (hread : has ev fdeRead = false)
      (hwrite : has ev fdeWrite = has (m.d.loop.mem (.socket a)).state fdeWrite)
      (hevents : has (m.d.loop.mem (.socket a)).events fdeRead = false)
      (hsub : has (m.d.loop.mem (.socket a)).state fdeRead = true ∨ ForcesRead e D₀ a)
      (hbytes : p.payload ≠ [] ∧ p.payload.length ≤ maxPayload) (hX : m.orphans = ∅) :
    Effect e D₀ m { m with
      d := { ((m.d.setTransport t { x with toInput := x.toInput ++ [p] }).emit
          (.read a p.payload)).emit (.sent t (some r) p) with loop := L } }
  | wrteJdwp (m : Moment) (a r : Addr) (s q : Asocket) (p : Apacket) (t : TAddr)
      (x : Atransport) (ha : a ∉ m.orphans) (hs : m.d.sockets a = some s) (hops : s.ops = .jdwp)
      (hp : s.peer = some r) (hto : m.SendsTo t x r q p s) (hpass : s.pass = false) :
    Effect e D₀ m { m with
      d := ((m.d.setTransport t { x with toInput := x.toInput ++ [p] }).emit
        (.sent t (some r) p)).setSocket a { s with pass := true } }
  | wrteTracker (m : Moment) (a r : Addr) (s q : Asocket) (p : Apacket) (t : TAddr)
      (x : Atransport) (ha : a ∉ m.orphans) (hs : m.d.sockets a = some s)
      (hops : s.ops = .tracker) (hp : s.peer = some r) (hto : m.SendsTo t x r q p s)
      (hneed : s.needUpdate = true) :
    Effect e D₀ m { m with
      d := ((m.d.setSocket a { s with needUpdate := false }).setTransport t
        { x with toInput := x.toInput ++ [p] }).emit (.sent t (some r) p) }
  -- the event loop
  | report (m : Moment) (n : ℕ) (ev : EpollMask) (mask : EpollMask) (k : FdeId)
      (h : m.d.loop.interest n = some (mask, k)) (hev : Daemon.reportable ev mask = true) :
    Effect e D₀ m { m with d := { m.d with loop := m.d.loop.fdeventReport k ev } }
  | dispatch (m : Moment) (k : FdeId) (L : Loop FdeId)
      (h : m.d.loop.fdeventPlistDequeue = some (k, L)) :
    Effect e D₀ m { m with d := { m.d with loop := (L.fdeventCallFdfunc k).2 } }
  | force (m : Moment) (n : ℕ) (k : FdeId) (ev : BitVec 16)
      (hk : m.d.loop.fdTable n = .fde k)
      (hev : ev = (m.d.loop.mem k).events ∨ ev = (m.d.loop.mem k).events ||| fdeRead ∨
        ev = 0#16) :
    Effect e D₀ m { m with
      d := { m.d with
        loop := m.d.loop.setMem k { m.d.loop.mem k with forceEof := true, events := ev } } }
  | rearm (m : Moment) (L : Loop FdeId) (ev : BitVec 16)
      (h : Loop.SetSpec .subproc ev m.d.loop L) :
    Effect e D₀ m { m with d := { m.d with loop := L } }
  -- the framework
  | confirm (m : Moment) (t : TAddr) (n : ℕ) (p : Apacket) (L M : Loop FdeId)
      (hp : m.handling = some (t, some p)) (hcmd : p.msg.command ≠ aSync)
      (hn : m.d.frameworkFd = some n) (hfwd : Forwards e D₀ t)
      (hhist : authHistory m.d.trace = authHistory D₀.trace)
      (hL : m.d.loop.fdeventInstall (.auth t) n = .ok L)
      (hM : L.fdeventAdd (.auth t) fdeRead = .ok M) :
    Effect e D₀ m { m with d := { m.d.emit (.confirm t) with loop := M } }
  | authDropped (m : Moment) (t : TAddr) (L : Loop FdeId)
      (h : m.d.loop.fdeventRemove (.auth t) = .ok L) :
    Effect e D₀ m { m with
      d := { m.d.emit (.authDropped t) with loop := L, frameworkFd := none } }
  | connected (m : Moment) (n : ℕ) (h : m.d.loop.inUse n = false) :
    Effect e D₀ m { m with
      d := { m.d.emit .frameworkConnected with
        loop := { m.d.loop with inUse := Function.update m.d.loop.inUse n true }
        owner := Function.update m.d.owner n (some .framework)
        frameworkFd := some n } }
  -- transports
  | register (m : Moment) (x : Atransport)
      (hx : x = { type := x.type, sfd := x.sfd, serial := x.serial })
      (hown : ∀ n, x.sfd = some n → x.type = .loc ∧ m.d.holds n (.sfd m.d.nextTAddr) = true) :
    Effect e D₀ m { m with d := m.d.registerTransport x }
  | enlist (m : Moment) (t : TAddr) (x : Atransport) (rest : List (TAddr × RegAction))
      (hreg : m.d.registration = (t, .register) :: rest) (hx : m.d.transports t = some x)
      (hstate : x.connectionState = .noperm) :
    Effect e D₀ m { m with
      d := { (m.d.setTransport t { x with disconnects := [] }).emit (.fetched t .register) with
        registration := rest
        transportList := m.d.transportList ++ [t] } }
  | start (m : Moment) (t : TAddr) (x : Atransport) (rest : List (TAddr × RegAction)) (n k : ℕ)
      (L M : Loop FdeId) (hreg : m.d.registration = (t, .register) :: rest)
      (hx : m.d.transports t = some x) (hn : m.d.loop.inUse n = false)
      (hk : m.d.loop.inUse k = false) (hnk : n ≠ k)
      (hL : Loop.fdeventInstall (.transport t) n
        { m.d.loop with
          inUse := Function.update (Function.update m.d.loop.inUse n true) k true } = .ok L)
      (hM : L.fdeventSet (.transport t) fdeRead = .ok M) :
    Effect e D₀ m { m with
      d := { (m.d.setTransport t { x with
            refCount := 2
            transportSocket := n
            fd := k
            input := .reading
            output := .start
            disconnects := [] }).emit (.fetched t .register) with
        registration := rest
        owner := Function.update (Function.update m.d.owner n (some (.transportSocket t))) k
          (some (.transportFd t))
        loop := M
        transportList := m.d.transportList ++ [t] } }
  | unplug (m : Moment) (t : TAddr) (x : Atransport) (rest : List (TAddr × RegAction))
      (L : Loop FdeId) (hreg : m.d.registration = (t, .remove) :: rest)
      (hx : m.d.transports t = some x) (hrem : Removes e D₀ t)
      (hsame : m.d.loop.inUse = D₀.loop.inUse ∧ m.d.owner = D₀.owner ∧
        m.d.transports = D₀.transports)
      (h : m.d.loop.fdeventRemove (.transport t) = .ok L) (own own' : Bool) :
    Effect e D₀ m { m with
      d := { m.d with
        trace := .shut (.transportFd t) x.fd own ::
          ((if has (m.d.loop.mem (.transport t)).state fdeActive then
            [.shut (.transportSocket t) (m.d.loop.mem (.transport t)).fd own'] else []) ++
            .fetched t .remove :: m.d.trace)
        registration := rest
        loop := L.adbClose x.fd
        transportList := m.d.transportList.erase t } }
  | freeTransport (m : Moment) (t : TAddr) (x : Atransport) (hidle : m.handling = none)
      (hx : m.d.transports t = some x) (hd : x.disconnects = []) (hrem : Removes e D₀ t)
      (hhist : authHistory m.d.trace = authHistory D₀.trace)
      (hreg : ∀ a, (t, a) ∉ m.d.registration) (hin : ¬m.d.loop.Installed (.transport t)) :
    Effect e D₀ m { m with
      d := { m.d with transports := Function.update m.d.transports t none } }
  | output (m : Moment) (t : TAddr) (x y : Atransport) (L : Loop FdeId)
      (R : List (TAddr × RegAction)) (os : List Obs) (n : ℕ) (hidle : m.handling = none)
      (hx : m.d.transports t = some x) (hact : e.action = .output t)
      (h : OutputStep e.io.packet t m.d x y L R os) :
    Effect e D₀ m { m with d := m.d.threadResult t y L R os n }
  | input (m : Moment) (t : TAddr) (x y : Atransport) (L : Loop FdeId)
      (R : List (TAddr × RegAction)) (os : List Obs) (n : ℕ) (hidle : m.handling = none)
      (hx : m.d.transports t = some x)
      (hstart : D₀.transports t = some x ∧ m.d.loop = D₀.loop ∧ m.d.owner = D₀.owner)
      (h : InputStep t m.d x y L R os) :
    Effect e D₀ m { m with d := m.d.threadResult t y L R os n }
  | closedAll (m : Moment) (t : TAddr) (x : Atransport) (hidle : m.handling = none)
      (hx : m.d.transports t = some x) (hpc : x.input = .closeAll) :
    Effect e D₀ m { m with d := m.d.setTransport t { x with input := .kickTest } }
  -- descriptors of other threads, and of objects about to be made
  | opened (m : Moment) (n : ℕ) (d : Desc) (h : m.d.loop.inUse n = false) :
    Effect e D₀ m { m with
      d := { m.d with
        loop := { m.d.loop with inUse := Function.update m.d.loop.inUse n true }
        owner := Function.update m.d.owner n (some d) } }
  | closed (m : Moment) (n : ℕ) (h : m.d.holds n .other = true) :
    Effect e D₀ m { m with d := m.d.adbClose n }

/-! ## Stops -/

/-- An `auth_fde` of `t` that the event loop or the kernel still refers to. -/
def AuthLinked (t : TAddr) (L : Loop FdeId) : Prop :=
  .auth t ∈ L.listPending ∨ (∃ n m, L.interest n = some (m, .auth t)) ∨
    (∃ n, L.fdTable n = .fde (.auth t))

/-- What is known about the moment in which the daemon stops.  A freed socket is never touched
and the model's fuel always suffices. -/
def StopsAt (m : Moment) : Stop → Prop
  | .freedSocket _ => False
  | .outOfFuel => False
  | .freedTransport t => m.d.transports t = none ∧ AuthLinked t m.d.loop
  | .cannotEnqueue t => m.MaySend t ∧ ∃ x, m.d.transports t = some x ∧
      (m.d.holds x.transportSocket (.transportSocket t) = false ∨
        m.d.holds x.fd (.transportFd t) = false)
  | .queueFull t => m.MaySend t ∧ ∃ x, m.d.transports t = some x ∧
      m.d.config.hasRoom x.toInput.length = false
  | .staleTracker a => a ∈ m.d.jdwpTrackersList ∧ m.d.sockets a = none
  | _ => True

end Adbd
