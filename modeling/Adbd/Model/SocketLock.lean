import Adbd.Framework.Mutex
import Adbd.Model.Close

/-!
# Closing sockets under `socket_list_lock` (`sockets.c`)

The functions of `Adbd.Model.Close` once more, with the mutex they take.  `find_local_socket`,
`install_local_socket`, `local_socket_close` and `close_all_sockets` hold it for as long as they
run, and the close functions that the last two reach through a socket's pointers run under it.
`socket_list_lock` is a plain mutex, so a thread that takes it twice waits for ever.

`local_socket_close_locked` compares its peer's pointer with `local_socket_close` and goes around
the mutex in that one case.
-/

namespace Adbd.SocketLock

open Mutex Mutex.Locking

/-- A computation of a thread that may hold `socket_list_lock`. -/
abbrev Locked (β : Type) := Locking Stop β

/-! ## The socket lists -/

/-- `find_local_socket`. -/
def findLocalSocket (id : UInt32) (D : Daemon) : Locked (Option Addr) :=
  guarded D fun D => lift (.ok (D.findLocalSocket id))

/-- `install_local_socket`. -/
def installLocalSocket (a : Addr) (D : Daemon) : Locked Daemon :=
  guarded D fun D => lift (D.installLocalSocket a)

/-! ## The close functions -/

/-- The common beginning of every close: clear the peer's back pointer and close the peer. -/
def closePeer (close : Addr → Daemon → Locked Daemon) (a : Addr) (D : Daemon) :
    Locked Daemon := do
  let s ← lift (D.deref a)
  match s.peer with
  | none => pure D
  | some p => do
    let q ← lift (D.deref p)
    close p (D.setSocket p { q with peer := none })

/-- The call of `local_socket_close_locked` to its peer: `closeLocked` is the function itself. -/
def closeUnderLock (close closeLocked : Addr → Daemon → Locked Daemon) (p : Addr) (D : Daemon) :
    Locked Daemon := do
  let q ← lift (D.deref p)
  if q.ops = .fd then closeLocked p D else close p D

/-- `local_socket_close_locked`. -/
def localSocketCloseLocked (close closeLocked : Addr → Daemon → Locked Daemon) (a : Addr)
    (D : Daemon) : Locked Daemon := do
  let D ← closePeer (closeUnderLock close closeLocked) a D
  let s ← lift (D.deref a)
  lift ((D.setSocket a { s with peer := none }).localSocketRetire a)

/-- `local_socket_close`. -/
def localSocketClose (close closeLocked : Addr → Daemon → Locked Daemon) (a : Addr)
    (D : Daemon) : Locked Daemon :=
  guarded D (localSocketCloseLocked close closeLocked a)

/-- `local_socket_close_notify`. -/
def localSocketCloseNotify (close closeLocked : Addr → Daemon → Locked Daemon) (a : Addr)
    (D : Daemon) : Locked Daemon := do
  let s ← lift (D.deref a)
  let D := D.setSocket a { s with ops := .fd }
  localSocketClose close closeLocked a (D.sendfailmsg a "closed")

/-- `remote_socket_close`. -/
def remoteSocketClose (close : Addr → Daemon → Locked Daemon) (r : Addr) (D : Daemon) :
    Locked Daemon := do
  let s ← lift (D.deref r)
  let (p, D) := D.getApacket
  let id ← lift (match s.peer with
    | none => pure 0
    | some a => do
      let q ← D.deref a
      pure q.id)
  let D ← closePeer close r D
  let D ← lift (D.sendPacket (some r) { p with msg := Daemon.closeMessage s id } s.transport)
  let D ← lift (D.removeTransportDisconnect s.transport r)
  pure (D.freeSocket r)

/-- `remote_socket_disconnect`. -/
def remoteSocketDisconnect (close : Addr → Daemon → Locked Daemon) (r : Addr) (D : Daemon) :
    Locked Daemon := do
  let s ← lift (D.deref r)
  let D ← closePeer close r D
  let D ← lift (D.removeTransportDisconnect s.transport r)
  pure (D.freeSocket r)

/-- `smart_socket_close`. -/
def smartSocketClose (close : Addr → Daemon → Locked Daemon) (a : Addr) (D : Daemon) :
    Locked Daemon := do
  let s ← lift (D.deref a)
  let D := D.putApackets (s.pkts.take 1)
  let D ← closePeer close a D
  pure (D.freeSocket a)

/-- `jdwp_socket_close`. -/
def jdwpSocketClose (close : Addr → Daemon → Locked Daemon) (a : Addr) (D : Daemon) :
    Locked Daemon := do
  let D ← lift (D.removeSocket a)
  let D ← closePeer close a D
  pure (D.freeSocket a)

/-- `jdwp_tracker_close`. -/
def jdwpTrackerClose (close : Addr → Daemon → Locked Daemon) (a : Addr) (D : Daemon) :
    Locked Daemon := do
  let D ← closePeer close a D
  let D ← lift (D.removeSocket a)
  lift (D.touchTrackers (Daemon.neighbours a D.jdwpTrackersList))
  pure { D.freeSocket a with jdwpTrackersList := D.jdwpTrackersList.erase a }

mutual

/-- `s->close(s)`, with the nesting depth still allowed. -/
def closeSocket : ℕ → Addr → Daemon → Locked Daemon
  | 0, _, _ => lift (.error .outOfFuel)
  | n + 1, a, D => do
    let s ← lift (D.deref a)
    match s.ops with
    | .fd => localSocketClose (closeSocket n) (closeLocked n) a D
    | .fdNotify => localSocketCloseNotify (closeSocket n) (closeLocked n) a D
    | .remote => remoteSocketClose (closeSocket n) a D
    | .smart => smartSocketClose (closeSocket n) a D
    | .jdwp => jdwpSocketClose (closeSocket n) a D
    | .tracker => jdwpTrackerClose (closeSocket n) a D

/-- `local_socket_close_locked(s)`, likewise. -/
def closeLocked : ℕ → Addr → Daemon → Locked Daemon
  | 0, _, _ => lift (.error .outOfFuel)
  | n + 1, a, D => localSocketCloseLocked (closeSocket n) (closeLocked n) a D

end

/-- `s->close(s)`. -/
def close (a : Addr) (D : Daemon) : Locked Daemon := closeSocket 2 a D

/-! ## Closing by transport -/

/-- The loop of `close_all_sockets`. -/
def closeAllFuel (t : TAddr) : ℕ → Daemon → Locked Daemon
  | 0, _ => lift (.error .outOfFuel)
  | fuel + 1, D =>
    match D.localSocketList.find? fun a => D.boundTo t a with
    | none => pure D
    | some a => do
      let D ← localSocketCloseLocked (closeSocket 1) (closeLocked 1) a D
      closeAllFuel t fuel D

/-- `close_all_sockets`. -/
def closeAllSockets (t : TAddr) (D : Daemon) : Locked Daemon :=
  guarded D (closeAllFuel t (D.localSocketList.length + 1))

/-- The loop of `run_transport_disconnects`. -/
def runDisconnects (t : TAddr) : ℕ → Option Addr → Daemon → Locked Daemon
  | _, none, D => pure D
  | 0, some _, _ => lift (.error .outOfFuel)
  | fuel + 1, some r, D => do
    let x ← lift (D.derefT t)
    let next := Daemon.nextDisconnect r x.disconnects
    let D ← remoteSocketDisconnect (closeSocket 1) r D
    runDisconnects t fuel next D

/-- `run_transport_disconnects`. -/
def runTransportDisconnects (t : TAddr) (D : Daemon) : Locked Daemon := do
  let x ← lift (D.derefT t)
  runDisconnects t x.disconnects.length x.disconnects.head? D

/-! ## The calls -/

/-- The ways into the functions that take the mutex. -/
inductive Call
  /-- `s->close(s)` of any kind of socket; of a socket with a descriptor it is
  `local_socket_close`. -/
  | close (a : Addr)
  /-- `close_all_sockets`. -/
  | closeAll (t : TAddr)
  /-- `run_transport_disconnects`. -/
  | disconnects (t : TAddr)
  /-- `find_local_socket`. -/
  | find (id : UInt32)
  /-- `install_local_socket`. -/
  | install (a : Addr)

/-- The call, made in the state `D`. -/
def Call.make (D : Daemon) : Call → Locked Daemon
  | .close a => SocketLock.close a D
  | .closeAll t => closeAllSockets t D
  | .disconnects t => runTransportDisconnects t D
  | .find id => do
    let _ ← findLocalSocket id D
    pure D
  | .install a => installLocalSocket a D

/-- The same call as the daemon's model makes it, where there is no mutex. -/
def Call.plain (D : Daemon) : Call → Except Stop Daemon
  | .close a => D.close a
  | .closeAll t => D.closeAllSockets t
  | .disconnects t => D.runTransportDisconnects t
  | .find _ => .ok D
  | .install a => D.installLocalSocket a

end Adbd.SocketLock
