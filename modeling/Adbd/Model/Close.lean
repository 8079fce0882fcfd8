import Adbd.Model.State

/-!
# Closing sockets (`sockets.c`, `jdwp_service.c`)

Every kind of socket has its own `close`, and each of them closes its peer through the peer's
pointer.  A peer's back pointer is always cleared before its `close` is called, so the calls
nest at most two deep; `closeSocket` counts the depth, and running out of it is a stop that is
shown never to happen.
-/

namespace Adbd

namespace Daemon

/-! ## The socket lists -/

/-- `find_local_socket`. -/
def findLocalSocket (id : UInt32) (D : Daemon) : Option Addr :=
  D.localSocketList.find? fun a => (D.sockets a).any (·.id = id)

/-- `install_local_socket`: the next id, and the end of `local_socket_list`. -/
def installLocalSocket (a : Addr) (D : Daemon) : Except Stop Daemon := do
  let s ← D.deref a
  pure { D.setSocket a { s with id := D.localSocketNextId } with
    localSocketNextId := D.localSocketNextId + 1
    localSocketList := D.localSocketList ++ [a] }

/-- `remove_socket`: unlink from whichever list the socket is in, and give up its id. -/
def removeSocket (a : Addr) (D : Daemon) : Except Stop Daemon := do
  let s ← D.deref a
  if a ∈ D.localSocketList ∨ a ∈ D.localSocketClosingList then
    pure { D.setSocket a { s with id := 0 } with
      localSocketList := D.localSocketList.erase a
      localSocketClosingList := D.localSocketClosingList.erase a }
  else pure D

/-! ## Disconnect records -/

/-- `add_transport_disconnect`. -/
def addTransportDisconnect (t : TAddr) (a : Addr) (D : Daemon) : Except Stop Daemon := do
  let x ← D.derefT t
  pure (D.setTransport t { x with disconnects := x.disconnects ++ [a] })

/-- `remove_transport_disconnect`. -/
def removeTransportDisconnect (t : Option TAddr) (a : Addr) (D : Daemon) :
    Except Stop Daemon :=
  match t with
  | none => .ok D
  | some t => do
    let x ← D.derefT t
    pure (D.setTransport t { x with disconnects := x.disconnects.erase a })

/-! ## Sockets with a descriptor -/

/-- `sendfailmsg` on the descriptor of a socket; the reasons are the program's own, all short. -/
def sendfailmsg (a : Addr) (reason : String) (D : Daemon) : Daemon :=
  let len := (str reason).length
  let digits := (Nat.toDigits 16 len).map fun c => UInt8.ofNat c.toNat
  let head := str "FAIL" ++ List.replicate (4 - digits.length) 0x30 ++ digits
  match D.writexTo a head with
  | (false, D) => D
  | (true, D) => (D.writexTo a (str reason)).2

/-- `local_socket_destroy`. -/
def localSocketDestroy (a : Addr) (D : Daemon) : Except Stop Daemon := do
  let s ← D.deref a
  let D ← D.onLoop (Loop.fdeventRemove (.socket a))
  let D := (D.emit (.destroyed a s.queued)).putApackets s.pkts
  let D ← D.removeSocket a
  let D := D.freeSocket a
  if s.exitOnClose then .error (.exitOnClose a) else pure D

/-- The end of `local_socket_close_locked`, once the socket has no peer. -/
def localSocketRetire (a : Addr) (D : Daemon) : Except Stop Daemon := do
  let s ← D.deref a
  if s.closing || s.pkts.isEmpty then D.localSocketDestroy a
  else
    let D := D.setSocket a { s with closing := true }
    let D ← D.onLoop (Loop.fdeventDel (.socket a) fdeRead)
    let D ← D.removeSocket a
    pure ({ D with localSocketClosingList := D.localSocketClosingList ++ [a] }.emit
      (.closing a s.queued))

/-- The common beginning of every close: clear the peer's back pointer and close the peer. -/
def closePeer (close : Addr → Daemon → Except Stop Daemon) (a : Addr) (D : Daemon) :
    Except Stop Daemon := do
  let s ← D.deref a
  match s.peer with
  | none => pure D
  | some p =>
    let q ← D.deref p
    close p (D.setSocket p { q with peer := none })

/-- `local_socket_close_locked`. -/
def localSocketCloseLocked (close : Addr → Daemon → Except Stop Daemon) (a : Addr)
    (D : Daemon) : Except Stop Daemon := do
  let D ← D.closePeer close a
  let s ← D.deref a
  (D.setSocket a { s with peer := none }).localSocketRetire a

/-- `local_socket_close_notify`. -/
def localSocketCloseNotify (close : Addr → Daemon → Except Stop Daemon) (a : Addr)
    (D : Daemon) : Except Stop Daemon := do
  let s ← D.deref a
  let D := D.setSocket a { s with ops := .fd }
  (D.sendfailmsg a "closed").localSocketCloseLocked close a

/-! ## Remote and smart sockets -/

/-- The message of `remote_socket_close`: without a peer the local id stays 0. -/
def closeMessage (s : Asocket) (peerId : UInt32) : Amessage :=
  { command := aClse, arg0 := peerId, arg1 := s.id }

/-- `remote_socket_close`. -/
def remoteSocketClose (close : Addr → Daemon → Except Stop Daemon) (r : Addr)
    (D : Daemon) : Except Stop Daemon := do
  let s ← D.deref r
  let (p, D) := D.getApacket
  let id ← (match s.peer with
    | none => pure 0
    | some a => do
      let q ← D.deref a
      pure q.id)
  let D ← D.closePeer close r
  let D ← D.sendPacket (some r) { p with msg := closeMessage s id } s.transport
  let D ← D.removeTransportDisconnect s.transport r
  pure (D.freeSocket r)

/-- `remote_socket_disconnect`. -/
def remoteSocketDisconnect (close : Addr → Daemon → Except Stop Daemon) (r : Addr)
    (D : Daemon) : Except Stop Daemon := do
  let s ← D.deref r
  let D ← D.closePeer close r
  let D ← D.removeTransportDisconnect s.transport r
  pure (D.freeSocket r)

/-- `smart_socket_close`. -/
def smartSocketClose (close : Addr → Daemon → Except Stop Daemon) (a : Addr)
    (D : Daemon) : Except Stop Daemon := do
  let s ← D.deref a
  let D := D.putApackets (s.pkts.take 1)
  let D ← D.closePeer close a
  pure (D.freeSocket a)

/-! ## JDWP sockets -/

/-- `jdwp_socket_close`. -/
def jdwpSocketClose (close : Addr → Daemon → Except Stop Daemon) (a : Addr)
    (D : Daemon) : Except Stop Daemon := do
  let D ← D.removeSocket a
  let D ← D.closePeer close a
  pure (D.freeSocket a)

/-- The entries before and after `a`; the list's ends are its static head. -/
def neighbours (a : Addr) (l : List Addr) : List Addr :=
  ((l.takeWhile (· ≠ a)).getLast?).toList ++ ((l.dropWhile (· ≠ a)).drop 1).head?.toList

/-- Writing to the links of entries of `_jdwp_trackers_list`. -/
def touchTrackers (l : List Addr) (D : Daemon) : Except Stop Unit :=
  match l.find? fun a => (D.sockets a).isNone with
  | none => .ok ()
  | some a => .error (.staleTracker a)

/-- `jdwp_tracker_close`. -/
def jdwpTrackerClose (close : Addr → Daemon → Except Stop Daemon) (a : Addr)
    (D : Daemon) : Except Stop Daemon := do
  let D ← D.closePeer close a
  let D ← D.removeSocket a
  D.touchTrackers (neighbours a D.jdwpTrackersList)
  pure { D.freeSocket a with jdwpTrackersList := D.jdwpTrackersList.erase a }

/-! ## The call through the pointer -/

/-- `s->close(s)`, with the nesting depth still allowed. -/
def closeSocket : ℕ → Addr → Daemon → Except Stop Daemon
  | 0, _, _ => .error .outOfFuel
  | n + 1, a, D => do
    let s ← D.deref a
    match s.ops with
    | .fd => D.localSocketCloseLocked (closeSocket n) a
    | .fdNotify => D.localSocketCloseNotify (closeSocket n) a
    | .remote => D.remoteSocketClose (closeSocket n) a
    | .smart => D.smartSocketClose (closeSocket n) a
    | .jdwp => D.jdwpSocketClose (closeSocket n) a
    | .tracker => D.jdwpTrackerClose (closeSocket n) a

/-- `s->close(s)`. -/
def close (a : Addr) (D : Daemon) : Except Stop Daemon := closeSocket 2 a D

/-! ## Closing by transport -/

/-- The test of `close_all_sockets`. -/
def boundTo (t : TAddr) (a : Addr) (D : Daemon) : Bool :=
  (D.sockets a).any fun s =>
    s.transport = some t ||
      s.peer.any fun p => (D.sockets p).any fun q => q.transport = some t

/-- `close_all_sockets`: after each close the walk starts again. -/
def closeAllFuel (t : TAddr) : ℕ → Daemon → Except Stop Daemon
  | 0, _ => .error .outOfFuel
  | fuel + 1, D =>
    match D.localSocketList.find? fun a => D.boundTo t a with
    | none => pure D
    | some a => do
      let D ← D.localSocketCloseLocked (closeSocket 1) a
      closeAllFuel t fuel D

def closeAllSockets (t : TAddr) (D : Daemon) : Except Stop Daemon :=
  D.closeAllFuel t (D.localSocketList.length + 1)

/-- The record linked after `r`. -/
def nextDisconnect (r : Addr) (l : List Addr) : Option Addr :=
  ((l.dropWhile (· ≠ r)).drop 1).head?

/-- The loop of `run_transport_disconnects` from `dis` on: the next record is read before the
function of this one is called. -/
def runDisconnects (t : TAddr) : ℕ → Option Addr → Daemon → Except Stop Daemon
  | _, none, D => pure D
  | 0, some _, _ => .error .outOfFuel
  | fuel + 1, some r, D => do
    let x ← D.derefT t
    let next := nextDisconnect r x.disconnects
    let D ← D.remoteSocketDisconnect (closeSocket 1) r
    runDisconnects t fuel next D

/-- `run_transport_disconnects`. -/
def runTransportDisconnects (t : TAddr) (D : Daemon) : Except Stop Daemon := do
  let x ← D.derefT t
  D.runDisconnects t x.disconnects.length x.disconnects.head?

end Daemon

end Adbd
