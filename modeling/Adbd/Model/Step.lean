import Adbd.Framework.Transition
import Adbd.Model.HandlePacket

/-!
# The daemon as a machine (`transport.c`, `transport_local.c`, `fdevent.c`, `adb.c`)

The main loop runs one callback at a time; the two threads of every transport, the threads that
accept connections and the service threads run beside it.  A step of the machine is one `epoll`
batch, one callback of the main loop, one step of a transport thread between two points where
others can interfere, or the arrival of a transport or a descriptor.  Each step comes with the
answers the environment gives during it.
-/

namespace Adbd

open Syscall

namespace Daemon

/-! ## Registration -/

/-- `register_transport` of a transport just allocated. -/
def registerTransport (x : Atransport) (D : Daemon) : Daemon :=
  { D.emit (.registered D.nextTAddr x.type) with
    transports := Function.update D.transports D.nextTAddr (some x)
    nextTAddr := D.nextTAddr + 1
    registration := D.registration ++ [(D.nextTAddr, .register)] }

/-- `register_socket_transport` on a connection just accepted. -/
def registerSocketTransport (serial : List UInt8) (D : Daemon) : Except Stop Daemon := do
  let (fd, D) ← D.takeFd (.sfd D.nextTAddr)
  match fd with
  | none => .error .disabled
  | some n => pure (D.registerTransport { type := .loc, sfd := some n, serial := some serial })

/-- `register_usb_transport`, which is only called for writeable devices. -/
def registerUsbTransport (D : Daemon) : Daemon := D.registerTransport { type := .usb }

/-- `adb_socketpair` for a transport. -/
def transportSocketpair (t : TAddr) (D : Daemon) : Except Stop ((ℕ × ℕ) × Daemon) := do
  let (a, D) ← D.takeFd (.transportSocket t)
  let (b, D) ← D.takeFd (.transportFd t)
  match a, b with
  | some n, some m => pure ((n, m), D)
  | _, _ => .error .fatalErrno

/-- `transport_registration_func`, action 1. -/
def startTransport (t : TAddr) (D : Daemon) : Except Stop Daemon := do
  let x ← D.derefT t
  let D ← (if x.connectionState ≠ .noperm then do
      let ((n, m), D) ← D.transportSocketpair t
      let D := D.setTransport t { x with
        refCount := 2
        transportSocket := n
        fd := m
        input := .reading
        output := .start }
      let D ← D.onLoop (Loop.fdeventInstall (.transport t) n)
      D.onLoop (Loop.fdeventSet (.transport t) fdeRead)
    else pure D)
  let D ← D.modifyT t fun x => { x with disconnects := [] }
  pure { D with transportList := D.transportList ++ [t] }

/-- `transport_registration_func`, action 0. -/
def removeTransport (t : TAddr) (D : Daemon) : Except Stop Daemon := do
  let x ← D.derefT t
  -- `fdevent_unregister` closes the descriptor of an installed `fdevent`
  let n := (D.loop.mem (.transport t)).fd
  let D := if FlagWord.has (D.loop.mem (.transport t)).state fdeActive then
      D.emit (.shut (.transportSocket t) n (D.holds n (.transportSocket t)))
    else D
  let D ← D.onLoop (Loop.fdeventRemove (.transport t))
  let D := D.shut (.transportFd t) x.fd
  let D := { D with transportList := D.transportList.erase t }
  let D ← D.runTransportDisconnects t
  pure { D with transports := Function.update D.transports t none }

/-- `transport_registration_func`. -/
def transportRegistrationFunc (ev : BitVec 16) (D : Daemon) : Except Stop Daemon :=
  if FlagWord.has ev fdeRead then
    match D.registration with
    | [] => .error .fatalErrno
    | (t, .register) :: rest =>
      ({ D with registration := rest }.emit (.fetched t .register)).startTransport t
    | (t, .remove) :: rest =>
      ({ D with registration := rest }.emit (.fetched t .remove)).removeTransport t
  else pure D

/-! ## The threads of a transport -/

/-- `t->kick(t)`: the TCP transport shuts its connection down and closes it. -/
def kick (t : TAddr) (D : Daemon) : Except Stop Daemon := do
  let x ← D.derefT t
  let D := D.emit (.kick t)
  match x.type, x.sfd with
  | .loc, some n => pure ((D.setTransport t { x with sfd := none }).shut (.sfd t) n)
  | _, _ => pure D

/-- `t->close(t)`: the TCP transport closes its end of the pair. -/
def closeTransport (t : TAddr) (D : Daemon) : Except Stop Daemon := do
  let x ← D.derefT t
  let D := D.emit (.close t)
  match x.type with
  | .loc => pure (D.shut (.transportFd t) x.fd)
  | .usb => pure D

/-- `transport_unref`. -/
def transportUnref (t : TAddr) (D : Daemon) : Except Stop Daemon := do
  let x ← D.derefT t
  let D := D.setTransport t { x with refCount := x.refCount - 1 }
  if x.refCount - 1 = 0 then do
    let D ← (if x.kicked then pure D
      else do
        let D ← D.modifyT t fun x => { x with kicked := true }
        D.kick t)
    let D ← D.closeTransport t
    pure { D.emit (.posted t) with registration := D.registration ++ [(t, .remove)] }
  else pure D

/-- The packets `output_thread` makes itself. -/
def syncPacket (arg0 arg1 : UInt32) : Amessage :=
  { command := aSync, arg0 := arg0, arg1 := arg1, magic := aSync ^^^ 0xffffffff }

/-- `write_packet` of `output_thread`: the flag tells whether it succeeded. -/
def writeToMain (t : TAddr) (p : Apacket) (D : Daemon) : Except Stop (Bool × Daemon) := do
  let x ← D.derefT t
  if D.holds x.fd (.transportFd t) then
    if D.holds x.transportSocket (.transportSocket t) then
      pure (true, D.setTransport t { x with toMain := x.toMain ++ [p] })
    else pure (false, D.putApacket p)
  else if D.loop.inUse x.fd then .error (.strayDescriptor x.fd)
  else pure (false, D.putApacket p)

def setOutput (t : TAddr) (pc : OutputPc) (D : Daemon) : Except Stop Daemon :=
  D.modifyT t fun x => { x with output := pc }

def setInput (t : TAddr) (pc : InputPc) (D : Daemon) : Except Stop Daemon :=
  D.modifyT t fun x => { x with input := pc }

/-- A packet `read_from_remote` can return: it passed both checks, and its payload lies within
the packet. -/
def Acceptable (p : Apacket) : Bool :=
  checkHeader p.msg && checkData p && p.msg.dataLength.toNat ≤ p.data.length

/-- One step of `output_thread`. -/
def outputThread (t : TAddr) (D : Daemon) : Except Stop Daemon := do
  let x ← D.derefT t
  match x.output with
  | .start =>
    let (p, D) := D.getApacket
    let D := D.setTransport t { x with syncToken := x.syncToken + 1 }
    let (ok, D) ← D.writeToMain t { p with msg := syncPacket 1 (x.syncToken + 1) }
    D.setOutput t (if ok then .reading else .kickTest)
  | .reading =>
    let (p, D) := D.getApacket
    match D.io.packet with
    | none => (D.putApacket p).setOutput t .sendSync
    | some q =>
      -- a connection that was kicked delivers nothing any more
      if !Acceptable q || (x.type = .loc && x.sfd = none) then .error .disabled
      else do
        let (ok, D) ← D.writeToMain t { q with addr := p.addr, len := 0, ptr := 0 }
        D.setOutput t (if ok then .reading else .kickTest)
  | .sendSync =>
    let (p, D) := D.getApacket
    let (_, D) ← D.writeToMain t { p with msg := syncPacket 0 0 }
    D.setOutput t .kickTest
  | .kickTest => D.setOutput t (if x.kicked then .unref else .kickLock)
  | .kickLock =>
    if x.kicked then D.setOutput t .unref
    else do
      let D ← D.modifyT t fun x => { x with kicked := true }
      D.setOutput t .kickCall
  | .kickCall => do
    let D ← D.kick t
    D.setOutput t .unref
  | .unref => do
    let D ← D.setOutput t .done
    D.transportUnref t
  | .done => .error .disabled

/-- `input_thread` has read packet `p`. -/
def inputPacket (t : TAddr) (p : Apacket) (D : Daemon) : Except Stop Daemon := do
  let x ← D.derefT t
  if p.msg.command = aSync then
    if p.msg.arg0 = 0 then (D.putApacket p).setInput t .closeAll
    else if p.msg.arg1 = x.syncToken then
      pure ((D.setTransport t { x with active := true }).putApacket p)
    else pure (D.putApacket p)
  else if x.active then pure ((D.emit (.toRemote t p)).putApacket p)
  else pure (D.putApacket p)

/-- One step of `input_thread`. -/
def inputThread (t : TAddr) (D : Daemon) : Except Stop Daemon := do
  let x ← D.derefT t
  match x.input with
  | .reading =>
    if D.holds x.fd (.transportFd t) then
      match x.toInput with
      | p :: rest => (D.setTransport t { x with toInput := rest }).inputPacket t p
      | [] =>
        if D.holds x.transportSocket (.transportSocket t) then .error .disabled
        else D.setInput t .closeAll
    else if D.loop.inUse x.fd then .error (.strayDescriptor x.fd)
    else D.setInput t .closeAll
  | .closeAll => do
    let D ← D.closeAllSockets t
    D.setInput t .kickTest
  | .kickTest => D.setInput t (if x.kicked then .unref else .kickLock)
  | .kickLock =>
    if x.kicked then D.setInput t .unref
    else do
      let D ← D.modifyT t fun x => { x with kicked := true }
      D.setInput t .kickCall
  | .kickCall => do
    let D ← D.kick t
    D.setInput t .unref
  | .unref => do
    let D ← D.setInput t .done
    D.transportUnref t
  | .done => .error .disabled

/-! ## Callbacks of the main loop -/

/-- `transport_socket_events`. -/
def transportSocketEvents (ev : BitVec 16) (t : TAddr) (D : Daemon) : Except Stop Daemon := do
  let x ← D.derefT t
  if FlagWord.has ev fdeRead then
    if D.holds x.transportSocket (.transportSocket t) then
      match x.toMain with
      | [] => pure D
      | p :: rest => (D.setTransport t { x with toMain := rest }).handlePacket p t
    else if D.loop.inUse x.transportSocket then .error (.strayDescriptor x.transportSocket)
    else pure D
  else pure D

/-- The object an `fdevent` is embedded in has not been freed. -/
def touchFde (k : FdeId) (D : Daemon) : Except Stop Unit :=
  match k with
  | .socket a => do
    let _ ← D.deref a
    pure ()
  | .transport t | .auth t => do
    let _ ← D.derefT t
    pure ()
  | _ => .ok ()

/-- `fde->func(fde->fd,events,fde->arg)`, except for the shell-exit handler. -/
def callback (k : FdeId) (ev : BitVec 16) (D : Daemon) : Except Stop Daemon :=
  match k with
  | .socket a => D.localSocketEventFunc ev a
  | .transport t => D.transportSocketEvents ev t
  | .auth t => D.adbAuthEvent ev t
  | .authListener => D.adbAuthListener
  | .registration => D.transportRegistrationFunc ev
  | .listener => D.ssListenerEventFunc ev
  | .jdwpControl => D.jdwpControlEvent ev
  | .jdwpProcess i => D.jdwpProcessEvent ev i
  | .subproc => .error .disabled

/-- `fdevent_call_fdfunc`. -/
def callFdfunc (k : FdeId) (D : Daemon) : Except Stop Daemon :=
  match D.loop.fdeventCallFdfunc k with
  | (none, L) => pure { D with loop := L }
  | (some ev, L) => { D with loop := L }.callback k ev

/-- `fdevent_subproc_event_func`: a child has exited; its descriptor is looked up by number and
given an end of file, at once if there is nothing left to read.  No waiter is ever given the
number of the notification socket itself. -/
def fdeventSubprocEventFunc (ev : BitVec 16) (D : Daemon) : Except Stop Daemon := do
  let D ← D.onLoop (Loop.fdeventAdd .subproc fdeRead)
  if FlagWord.has ev fdeRead then
    match readFull 4 D.io.reads with
    | (none, _) => .error .fatalErrno
    | (some bs, rs) =>
      let D := D.setReads rs
      let n := bs.foldr (fun b n => b.toNat + 256 * n) 0
      if D.loop.fdTableMax ≤ n then pure D
      else
        match D.loop.fdTable n with
        | .null => pure D
        | .wild => .error (.wildFde n)
        | .fde k =>
          let fde := D.loop.mem k
          if fde.fd ≠ n then pure D
          else
            let D := { D with loop := D.loop.setMem k { fde with forceEof := true } }
            if D.io.fionread ≠ 0 then pure D
            else
              let fde := { D.loop.mem k with events := (D.loop.mem k).events ||| fdeRead }
              if FlagWord.has fde.state fdePending then
                pure { D with loop := D.loop.setMem k fde }
              else do
                D.touchFde k
                let fde := { fde with state := fde.state ||| fdePending }
                callFdfunc k { D with loop := D.loop.setMem k fde }
  else pure D

/-- One iteration of the inner loop of `fdevent_loop`. -/
def dispatch (D : Daemon) : Except Stop Daemon :=
  match D.loop.fdeventPlistDequeue with
  | none => .error .disabled
  | some (k, L) => do
    let D := { D with loop := L }
    D.touchFde k
    if k = .subproc then
      match D.loop.fdeventCallFdfunc .subproc with
      | (none, L) => pure { D with loop := L }
      | (some ev, L) => fdeventSubprocEventFunc ev { D with loop := L }
    else D.callFdfunc k

/-- The events the kernel can report for a descriptor in the interest list; errors and hang-ups
are reported unasked. -/
def reportable (ev m : EpollMask) : Bool :=
  (!ev.pollIn || m.pollIn) && (!ev.pollOut || m.pollOut)

/-- `fdevent_process` on what `epoll_wait` returned, by descriptor; `data.ptr` is what the
interest list holds. -/
def fdeventProcess : List (ℕ × EpollMask) → Daemon → Except Stop Daemon
  | [], D => pure D
  | (n, ev) :: batch, D =>
    match D.loop.interest n with
    | none => .error .disabled
    | some (m, k) =>
      if reportable ev m then do
        D.touchFde k
        fdeventProcess batch { D with loop := D.loop.fdeventReport k ev }
      else .error .disabled

end Daemon

/-! ## Steps -/

inductive Action
  /-- `epoll_wait` returns; the pending list is empty then. -/
  | epollWait (batch : List (ℕ × EpollMask))
  /-- The next pending callback. -/
  | dispatch
  | output (t : TAddr)
  | input (t : TAddr)
  | registerSocket (serial : List UInt8)
  | registerUsb
  /-- Another thread opens or closes a descriptor of its own. -/
  | openFd
  | closeFd (n : ℕ)
  deriving DecidableEq, Repr

/-- A step and the answers of the environment during it. -/
structure Event where
  action : Action
  io : Io := {}

namespace Daemon

def act (a : Action) (D : Daemon) : Except Stop Daemon :=
  match a with
  | .epollWait batch =>
    if D.loop.listPending = [] ∧ batch.length ≤ 256 then D.fdeventProcess batch
    else .error .disabled
  | .dispatch => D.dispatch
  | .output t => if (D.transports t).isSome then D.outputThread t else .error .disabled
  | .input t => if (D.transports t).isSome then D.inputThread t else .error .disabled
  | .registerSocket serial => D.registerSocketTransport serial
  | .registerUsb => pure D.registerUsbTransport
  | .openFd => do
    let (fd, D) ← D.takeFd .other
    match fd with
    | none => .error .disabled
    | some _ => pure D
  | .closeFd n => if D.holds n .other then pure (D.adbClose n) else .error .disabled

/-- One step of the daemon. -/
def step (e : Event) (D : Daemon) : Except Stop Daemon := act e.action { D with io := e.io }

/-! ## Initialisation -/

/-- A descriptor for a listener, and its subscription. -/
def listenOn (k : FdeId) (D : Daemon) : Except Stop (Bool × Daemon) := do
  let (fd, D) ← D.takeFd (.listener k)
  match fd with
  | none => pure (false, D)
  | some n =>
    let D ← D.onLoop (Loop.fdeventInstall k n)
    let D ← D.onLoop (Loop.fdeventAdd k fdeRead)
    pure (true, D)

/-- As `listenOn`, where a failure ends the daemon. -/
def mustListenOn (k : FdeId) (D : Daemon) : Except Stop Daemon := do
  let (ok, D) ← D.listenOn k
  if ok then pure D else .error .fatalErrno

/-- `adb_main` up to `fdevent_loop`.  `inUse` are the descriptors the process was started with,
`fds` the ones it is given for its own. -/
def adbMain (config : Config) (fds : List ℕ) (inUse : ℕ → Bool) : Except Stop Daemon := do
  let D : Daemon :=
    { loop :=
        { mem := fun _ => {}
          listPending := []
          fdTable := fun _ => .null
          fdTableMax := 0
          fill := fun _ => .wild
          inUse := inUse
          interest := fun _ => none }
      config := config
      io := { fds := fds } }
  -- `init_transport_registration`
  let (_, D) ← D.takeFd .other
  let D ← D.mustListenOn .registration
  let (_, D) ← (if config.authEnabled then D.listenOn .authListener else pure (false, D))
  let D ← D.mustListenOn .listener
  let (_, D) ← D.listenOn .jdwpControl
  -- `fdevent_subproc_setup`
  let (_, D) ← D.takeFd .other
  D.mustListenOn .subproc

/-- The states the daemon can be in. -/
def Reachable (D : Daemon) : Prop :=
  ∃ config fds inUse D₀ es, adbMain config fds inUse = .ok D₀ ∧
    Transition.run step es D₀ = .ok D

end Daemon

end Adbd
