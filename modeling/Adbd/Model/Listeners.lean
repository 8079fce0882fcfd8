import Adbd.Framework.Rings
import Adbd.Framework.Transition
import Adbd.Model.Acquire
import Adbd.Model.Services

/-!
# Listeners and `handle_host_request` (`adb.c`)

The table of listeners, the requests that change it, and the transports it hangs on.  Two kinds
of intrusive lists are edited: `listener_list`, through the links of the listeners, and the list
`t->disconnects` of each transport, through the `adisconnect` that is embedded in a listener or
in a remote socket.  Both are modelled pointer for pointer.

What else happens to transports is in the events of `step`: they are registered and removed, go
offline, change their state, and remote sockets come and go with their own disconnect records.
The `fdevent` of a listener is left out.
-/

namespace Adbd

open Acquire Daemon

/-- Address of an `alistener`. -/
abbrev LAddr := ℕ

/-- `struct alistener` without its links. -/
structure Alistener where
  fd : ℕ
  localName : List UInt8
  connectTo : List UInt8
  transport : Option TAddr
  deriving DecidableEq

/-- `l->connect_to[0]=='*'`. -/
def Alistener.internal (l : Alistener) : Bool := l.connectTo.head? = some 0x2a

/-- What an `adisconnect` is a part of: it is the sentinel of a transport or a record. -/
inductive Adisconnect
  | head (t : TAddr)
  | listener (l : LAddr)
  | remote (a : Addr)
  deriving DecidableEq

/-- The listeners, and as much of transports and remote sockets as they have to do with. -/
structure ForwardTable where
  listeners : LAddr → Option Alistener := fun _ => none
  nextAddr : LAddr := 0
  listenerList : Ring.Links LAddr := Ring.Links.null.init none
  transports : TAddr → Option Atransport := fun _ => none
  nextTAddr : TAddr := 0
  transportList : List TAddr := []
  /-- The `transport` of each remote socket. -/
  remotes : Addr → Option TAddr := fun _ => none
  nextRemote : Addr := 0
  disconnects : Ring.Links Adisconnect := .null

namespace ForwardTable

/-- Why the program stopped. -/
inductive Halt
  /-- The event is not possible in this state. -/
  | disabled
  /-- `exit`. -/
  | exit
  /-- `fatal("adbd: cannot allocate listener")`. -/
  | noMemory
  /-- `strlen(l->transport->serial)` of a transport without a serial. -/
  | noSerial
  | nullPointer
  /-- A freed listener, transport or remote socket was dereferenced. -/
  | freed
  /-- A walk over a list took more steps than there are elements. -/
  | endless
  deriving DecidableEq

/-- A pointer that is dereferenced. -/
def nonNull {β : Type} : Option β → Except Halt β
  | none => .error .nullPointer
  | some b => .ok b

def deref (l : LAddr) (T : ForwardTable) : Except Halt Alistener :=
  match T.listeners l with
  | none => .error .freed
  | some x => .ok x

def derefT (t : TAddr) (T : ForwardTable) : Except Halt Atransport :=
  match T.transports t with
  | none => .error .freed
  | some x => .ok x

def setListener (l : LAddr) (x : Alistener) (T : ForwardTable) : ForwardTable :=
  { T with listeners := Function.update T.listeners l (some x) }

/-! ## Disconnect records -/

/-- `add_transport_disconnect`. -/
def addTransportDisconnect (t : TAddr) (dis : Adisconnect) (T : ForwardTable) :
    Except Halt ForwardTable := do
  let _ ← T.derefT t
  let links ← nonNull (T.disconnects.linkBefore (some (.head t)) dis)
  pure { T with disconnects := links }

/-- `remove_transport_disconnect`, which makes no use of the transport it is given. -/
def removeTransportDisconnect (dis : Adisconnect) (T : ForwardTable) :
    Except Halt ForwardTable := do
  let links ← nonNull (T.disconnects.isolate dis)
  pure { T with disconnects := links }

/-! ## Listeners -/

/-- `free_listener`. -/
def freeListener (l : LAddr) (T : ForwardTable) : Except Halt ForwardTable := do
  let x ← T.deref l
  let links ← (match T.listenerList.next (some l) with
    | none => pure T.listenerList
    | some _ => nonNull (T.listenerList.isolate l))
  let T := { T with listenerList := links }
  let T ← (match x.transport with
    | none => pure T
    | some _ => T.removeTransportDisconnect (.listener l))
  pure { T with listeners := Function.update T.listeners l none }

/-- `listener_disconnect`. -/
def listenerDisconnect (l : LAddr) (T : ForwardTable) : Except Halt ForwardTable :=
  T.freeListener l

/-- The walk over `listener_list` for a local name, from the place `p` on. -/
def findListener (localName : List UInt8) (T : ForwardTable) :
    ℕ → Option LAddr → Except Halt (Option LAddr)
  | 0, _ => .error .endless
  | _ + 1, none => .ok none
  | n + 1, some l => do
    let x ← T.deref l
    if localName = x.localName then pure (some l)
    else
      let p ← nonNull (T.listenerList.next (some l))
      findListener localName T n p

/-- `remove_listener`: whether it returned 0. -/
def removeListener (localName : List UInt8) (T : ForwardTable) :
    Except Halt (Bool × ForwardTable) := do
  let p ← nonNull (T.listenerList.next none)
  match ← T.findListener localName (T.nextAddr + 1) p with
  | none => pure (false, T)
  | some l => do
    let T ← T.listenerDisconnect l
    pure (true, T)

/-- The loop of `remove_all_listeners`. -/
def removeListenersFrom : ℕ → Option LAddr → ForwardTable → Except Halt ForwardTable
  | 0, _, _ => .error .endless
  | _ + 1, none, T => .ok T
  | n + 1, some l, T => do
    let next ← nonNull (T.listenerList.next (some l))
    let x ← T.deref l
    if x.internal then removeListenersFrom n next T
    else
      let T ← T.listenerDisconnect l
      removeListenersFrom n next T

/-- `remove_all_listeners`. -/
def removeAllListeners (T : ForwardTable) : Except Halt ForwardTable := do
  let p ← nonNull (T.listenerList.next none)
  removeListenersFrom (T.nextAddr + 1) p T

/-- `install_status_t`. -/
inductive InstallStatus
  | ok
  | internalError
  | cannotBind
  | cannotRebind
  deriving DecidableEq

/-- What the system answers while a request is handled: whether there is memory, and the
descriptor of `local_name_to_fd`, if it can bind. -/
structure Answers where
  memory : Bool := true
  bind : Option ℕ := none

/-- The branch of `install_listener` for a name that has a listener. -/
def rebindListener (l : LAddr) (connectTo : List UInt8) (transport : Option TAddr)
    (noRebind : Bool) (env : Answers) (T : ForwardTable) :
    Except Halt (InstallStatus × ForwardTable) := do
  let x ← T.deref l
  if x.internal then pure (.internalError, T)
  else if noRebind then pure (.cannotRebind, T)
  else if !env.memory then pure (.internalError, T)
  else
    let T := T.setListener l { x with connectTo := connectTo }
    if x.transport ≠ transport then do
      let T ← T.removeTransportDisconnect (.listener l)
      let T := T.setListener l { x with connectTo := connectTo, transport := transport }
      let t ← nonNull transport
      let T ← T.addTransportDisconnect t (.listener l)
      pure (.ok, T)
    else pure (.ok, T)

/-- The part of `install_listener` behind the loop; a listener that cannot be bound is freed
again before it is linked anywhere. -/
def newListener (localName connectTo : List UInt8) (transport : Option TAddr) (env : Answers)
    (T : ForwardTable) : Except Halt (InstallStatus × ForwardTable) :=
  if !env.memory then .error .noMemory
  else
    match env.bind with
    | none => .ok (.cannotBind, T)
    | some fd => do
      let l := T.nextAddr
      let T := { T.setListener l ⟨fd, localName, connectTo, transport⟩ with
        nextAddr := T.nextAddr + 1 }
      let links ← nonNull (T.listenerList.linkBefore none l)
      let T := { T with listenerList := links }
      let T ← (match transport with
        | none => pure T
        | some t => T.addTransportDisconnect t (.listener l))
      pure (.ok, T)

/-- `install_listener`. -/
def installListener (localName connectTo : List UInt8) (transport : Option TAddr)
    (noRebind : Bool) (env : Answers) (T : ForwardTable) :
    Except Halt (InstallStatus × ForwardTable) := do
  let p ← nonNull (T.listenerList.next none)
  match ← T.findListener localName (T.nextAddr + 1) p with
  | some l => T.rebindListener l connectTo transport noRebind env
  | none => T.newListener localName connectTo transport env

/-! ## `handle_host_request` -/

/-- `sendfailmsg`. -/
def failmsg (reason : String) : List UInt8 :=
  let len := min (str reason).length 0xffff
  str "FAIL" ++ hex4 len ++ (str reason).take len

/-- `connection_state_name`. -/
def connectionStateName : Option Atransport → String
  | none => "unknown"
  | some x =>
    match x.connectionState with
    | .bootloader => "bootloader"
    | .device => "device"
    | .offline => "offline"
    | _ => "unknown"

/-- `format_listener`. -/
def formatListener (x : Alistener) (T : ForwardTable) : Except Halt (List UInt8) := do
  let t ← nonNull x.transport
  let y ← T.derefT t
  match y.serial with
  | none => .error .noSerial
  | some serial => .ok (serial ++ [0x20] ++ x.localName ++ [0x20] ++ x.connectTo ++ [0x0a])

/-- The loop of `format_listeners`. -/
def formatListeners (T : ForwardTable) : ℕ → Option LAddr → Except Halt (List UInt8)
  | 0, _ => .error .endless
  | _ + 1, none => .ok []
  | n + 1, some l => do
    let x ← T.deref l
    let next ← nonNull (T.listenerList.next (some l))
    if x.internal then formatListeners T n next
    else
      let line ← T.formatListener x
      let lines ← formatListeners T n next
      pure (line ++ lines)

/-- What follows the first colon. -/
def afterColon (bs : List UInt8) : List UInt8 := (bs.dropWhile (· ≠ 0x3a)).drop 1

/-- What a `forward:` or a `killforward:` asks for. -/
inductive Spec
  | create (noRebind : Bool) (localName remote : List UInt8)
  | remove (localName : List UInt8)
  deriving DecidableEq

/-- The checks on the text of a `forward:` or a `killforward:`; `none` is malformed. -/
def parseSpec (service : List UInt8) : Option Spec :=
  let createForward := !startsWith service "kill"
  let name := afterColon service
  let noRebind := createForward && startsWith name "norebind:"
  let name := if noRebind then afterColon name else name
  if createForward then
    if 0x3b ∉ name then none
    else
      let remote := (name.dropWhile (· ≠ 0x3b)).drop 1
      let name := name.takeWhile (· ≠ 0x3b)
      if name = [] ∨ remote = [] ∨ remote.head? = some 0x2a then none
      else some (.create noRebind name remote)
  else if name = [] then none
  else some (.remove name)

/-- `acquire_one_transport(CS_ANY,ttype,serial,...)`: the transport, or the text of the error. -/
def acquire (ttype : Requested) (serial : Option (List UInt8)) (T : ForwardTable) :
    TAddr ⊕ String :=
  match acquireOneTransport none ttype serial
      (fun t => (T.transports t).getD { type := .usb }) T.transportList with
  | some (some t, _) => .inl t
  | some (none, err) => .inr (err.getD "")
  | none => .inr ""

/-- A well-formed request is carried out on the transport, and answered. -/
def runSpec (spec : Spec) (t : TAddr) (env : Answers) (T : ForwardTable) :
    Except Halt (List UInt8 × ForwardTable) :=
  match spec with
  | .create noRebind localName remote => do
    let (status, T) ← T.installListener localName remote (some t) noRebind env
    match status with
    | .ok => pure (str "OKAYOKAY", T)
    | .cannotBind => pure (failmsg "cannot bind to socket", T)
    | .cannotRebind => pure (failmsg "cannot rebind existing socket", T)
    | .internalError => pure (failmsg "internal error", T)
  | .remove localName => do
    let (found, T) ← T.removeListener localName
    if found then pure (str "OKAYOKAY", T)
    else pure (failmsg "cannot remove listener", T)

/-- `handle_host_request`: what it writes to `reply_fd`, nothing if it returns -1. -/
def handleHostRequest (service : List UInt8) (ttype : Requested) (serial : Option (List UInt8))
    (env : Answers) (T : ForwardTable) : Except Halt (Option (List UInt8) × ForwardTable) :=
  if service = str "kill" then .error .exit
  else if service = str "list-forward" then do
    let p ← nonNull (T.listenerList.next none)
    let text ← T.formatListeners (T.nextAddr + 1) p
    pure (some (str "OKAY" ++ (hex4 text.length).take 4 ++ text), T)
  else if service = str "killforward-all" then do
    let T ← T.removeAllListeners
    pure (some (str "OKAYOKAY"), T)
  else if startsWith service "forward:" || startsWith service "killforward:" then
    match parseSpec service with
    | none => .ok (some (failmsg "malformed forward spec"), T)
    | some spec =>
      match T.acquire ttype serial with
      | .inr err => .ok (some (failmsg err), T)
      | .inl t => do
        let (reply, T) ← T.runSpec spec t env
        pure (some reply, T)
  else if startsWith service "get-state" then
    let state := str (connectionStateName (match T.acquire ttype serial with
      | .inl t => T.transports t
      | .inr _ => none))
    .ok (some (str "OKAY" ++ hex4 state.length ++ state), T)
  else .ok (none, T)

/-! ## Transports and remote sockets -/

/-- `remote_socket_disconnect`, as far as it concerns the record. -/
def remoteSocketDisconnect (a : Addr) (T : ForwardTable) : Except Halt ForwardTable :=
  match T.remotes a with
  | none => .error .freed
  | some _ => do
    let T ← T.removeTransportDisconnect (.remote a)
    pure { T with remotes := Function.update T.remotes a none }

/-- `dis->func(dis->opaque,t)`. -/
def callDisconnect : Adisconnect → ForwardTable → Except Halt ForwardTable
  | .listener l, T => T.listenerDisconnect l
  | .remote a, T => T.remoteSocketDisconnect a
  | .head _, _ => .error .nullPointer

/-- The loop of `run_transport_disconnects`. -/
def runDisconnectsFrom (t : TAddr) :
    ℕ → Option Adisconnect → ForwardTable → Except Halt ForwardTable
  | 0, _, _ => .error .endless
  | n + 1, p, T =>
    if p = some (.head t) then .ok T
    else do
      let dis ← nonNull p
      let next ← nonNull (T.disconnects.next p)
      let T ← T.callDisconnect dis
      runDisconnectsFrom t n next T

/-- `run_transport_disconnects`. -/
def runTransportDisconnects (t : TAddr) (T : ForwardTable) : Except Halt ForwardTable := do
  let _ ← T.derefT t
  let p ← nonNull (T.disconnects.next (some (.head t)))
  runDisconnectsFrom t (T.nextAddr + T.nextRemote + 1) p T

/-- What can happen to the table. -/
inductive Event
  /-- `handle_host_request`. -/
  | request (service : List UInt8) (ttype : Requested) (serial : Option (List UInt8))
    (env : Answers)
  /-- `transport_registration_func` of a new transport. -/
  | registered (x : Atransport)
  /-- The state or the names of a transport change. -/
  | changed (t : TAddr) (x : Atransport)
  /-- `handle_offline`. -/
  | offline (t : TAddr)
  /-- `transport_registration_func` of a transport that goes away. -/
  | removed (t : TAddr)
  /-- `create_remote_socket`. -/
  | streamOpened (t : TAddr)
  /-- `remote_socket_close`. -/
  | streamClosed (a : Addr)

def step : Event → ForwardTable → Except Halt ForwardTable
  | .request service ttype serial env, T => do
    let (_, T) ← T.handleHostRequest service ttype serial env
    pure T
  | .registered x, T =>
    .ok { T with
      transports := Function.update T.transports T.nextTAddr (some x)
      nextTAddr := T.nextTAddr + 1
      transportList := T.transportList ++ [T.nextTAddr]
      disconnects := T.disconnects.init (some (.head T.nextTAddr)) }
  | .changed t x, T =>
    if (T.transports t).isSome then
      .ok { T with transports := Function.update T.transports t (some x) }
    else .error .disabled
  | .offline t, T =>
    if (T.transports t).isSome then T.runTransportDisconnects t else .error .disabled
  | .removed t, T =>
    if (T.transports t).isSome then do
      let T ← { T with transportList := T.transportList.erase t }.runTransportDisconnects t
      pure { T with transports := Function.update T.transports t none }
    else .error .disabled
  | .streamOpened t, T =>
    if (T.transports t).isSome then
      { T with
        remotes := Function.update T.remotes T.nextRemote (some t)
        nextRemote := T.nextRemote + 1 }.addTransportDisconnect t (.remote T.nextRemote)
    else .error .disabled
  | .streamClosed a, T =>
    match T.remotes a with
    | none => .error .disabled
    | some _ => do
      let T ← T.removeTransportDisconnect (.remote a)
      pure { T with remotes := Function.update T.remotes a none }

/-- `adb_main` installs the listener for the smart sockets. -/
def adbMain (serverPort : Int) (env : Answers) : Except Halt ForwardTable := do
  let (status, T) ← ({} : ForwardTable).installListener
    (str ("tcp:" ++ toString serverPort))
    (str "*smartsocket*") none false env
  if status = .ok then pure T else .error .exit

end ForwardTable

end Adbd
