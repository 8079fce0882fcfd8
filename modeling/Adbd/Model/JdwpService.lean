import Adbd.Framework.Transition
import Adbd.Model.Services

/-!
# The list of JDWP processes (`jdwp_service.c`)

All processes, the requests `jdwp:<n>` and the events on the sockets of the processes, on top of
what `Adbd.Model.Jdwp` says about one process.  An `fdevent` is taken for what it is there for:
`fdevent_add` and `fdevent_del` turn `FDE_WRITE` on and off, and the events of a process arrive
while it is listed.  (In the daemon as a whole `fdevent_add` ends the program when the first
process connects, because of the flag that is set before.)

A descriptor is named by a number that is never handed out twice, so that closing it again would
be seen in the history `trace`, newest first.
-/

namespace Adbd

open Syscall Daemon

/-- The history. -/
inductive JdwpObs
  /-- The four bytes of a process were converted. -/
  | known (addr : ℕ) (pid : Int)
  /-- `create_jdwp_connection_fd(pid)` put a descriptor into `out_fds`. -/
  | queued (addr fd : ℕ) (pid : Int)
  /-- `sendmsg` passed a descriptor on. -/
  | sent (addr fd : ℕ)
  /-- `adb_close`. -/
  | closed (fd : ℕ)
  deriving DecidableEq

structure Jdwp where
  /-- `_jdwp_list`. -/
  list : List JdwpProcess := []
  nextAddr : ℕ := 0
  nextFd : ℕ := 0
  /-- Whether `FDE_WRITE` is subscribed for a process. -/
  writing : ℕ → Bool := fun _ => false
  trace : List JdwpObs := []

namespace Jdwp

def emit (o : JdwpObs) (J : Jdwp) : Jdwp := { J with trace := o :: J.trace }

def setProcess (proc : JdwpProcess) (J : Jdwp) : Jdwp :=
  { J with list := J.list.map fun q => if q.addr = proc.addr then proc else q }

def setWriting (addr : ℕ) (b : Bool) (J : Jdwp) : Jdwp :=
  { J with writing := Function.update J.writing addr b }

/-- `jdwp_process_free`. -/
def free (proc : JdwpProcess) (J : Jdwp) : Jdwp :=
  let J := { J with list := J.list.filter fun q => q.addr ≠ proc.addr }
  let J := (J.emit (.closed proc.socket)).setWriting proc.addr false
  proc.pending.foldl (fun J fd => J.emit (.closed fd)) J

/-- `jdwp_process_alloc` of a client that was accepted. -/
def connect (J : Jdwp) : Jdwp :=
  { J with
    list := J.list ++ [{ addr := J.nextAddr, socket := J.nextFd }]
    nextAddr := J.nextAddr + 1
    nextFd := J.nextFd + 1
    writing := Function.update J.writing J.nextAddr false }

/-- The `FDE_WRITE` branch of `jdwp_process_event`. -/
def onWritable (proc : JdwpProcess) (fcntls : List Bool) (sends : List WriteResult) (J : Jdwp) :
    Jdwp :=
  match proc.writable fcntls sends with
  | (.idle, _, _, _) => J
  | (.failed none, proc, _, _) => (J.setProcess proc).free proc
  | (.failed (some fd), proc, _, _) =>
    (((J.setProcess proc).emit (.sent proc.addr fd)).emit (.closed fd)).free proc
  | (.sent fd, proc, _, _) =>
    let J := ((J.setProcess proc).emit (.sent proc.addr fd)).emit (.closed fd)
    if proc.outCount = 0 then J.setWriting proc.addr false else J

/-- `jdwp_process_event`. -/
def processEvent (proc : JdwpProcess) (read write : Bool) (reads : List ReadResult)
    (fcntls : List Bool) (sends : List WriteResult) (J : Jdwp) : Jdwp :=
  if read then
    match proc.readable reads with
    | (.wait, proc, _) => J.setProcess proc
    | (.close, proc, _) => (J.setProcess proc).free proc
    | (.known, proc, _) =>
      let J := (J.setProcess proc).emit (.known proc.addr proc.pid)
      if write then J.onWritable proc fcntls sends else J
  else if write then J.onWritable proc fcntls sends
  else J

/-- `create_jdwp_connection_fd`; `pair` tells whether `adb_socketpair` succeeds. -/
def createConnectionFd (pid : Int) (pair : Bool) (J : Jdwp) : Jdwp :=
  match J.list.find? fun q => q.pid = pid with
  | none => J
  | some proc =>
    if maxOutFds ≤ proc.outCount then J
    else if !pair then J
    else
      let fd := J.nextFd + 1
      let proc := proc.enqueue fd
      let J := ({ J with nextFd := J.nextFd + 2 }.setProcess proc).emit (.queued proc.addr fd pid)
      if proc.outCount = 1 then J.setWriting proc.addr true else J

/-- What can happen. -/
inductive Event
  /-- A client connects. -/
  | connect
  /-- The socket of a process is ready. -/
  | ready (addr : ℕ) (read write : Bool) (reads : List ReadResult) (fcntls : List Bool)
    (sends : List WriteResult)
  /-- `jdwp:` and the text that follows. -/
  | request (text : List UInt8) (pair : Bool)

def step : Event → Jdwp → Except Stop Jdwp
  | .connect, J => .ok J.connect
  | .ready addr read write reads fcntls sends, J =>
    match J.list.find? fun q => q.addr = addr with
    | none => .error .disabled
    | some proc => .ok (J.processEvent proc read write reads fcntls sends)
  | .request text pair, J => .ok (J.createConnectionFd (atoi text) pair)

end Jdwp

end Adbd
