import Adbd.Framework.Syscall
import Adbd.Model.FdeventSpec
import Adbd.Model.Packet

/-!
# State of the daemon (`adb.h`, `sockets.c`, `transport.c`, `jdwp_service.c`, `adb_auth_client.c`)

One record holds everything the main loop and the two threads of each transport work on: the
event loop, the sockets with their lists, the transports with their socket pairs and thread
positions, the JDWP lists and the framework connection.  The source's function pointers
(`enqueue`, `ready`, `close`, the `fdevent` callbacks) are the enumerations `SocketOps` and
`FdeId`.

Three fields do not exist in the program.  `io` holds the answers of the environment that the
current event has not used up, `owner` says for what purpose a descriptor number was last
opened, and `trace` is the history the temporal properties speak about, newest first.
-/

namespace Adbd

open Syscall

/-- A string literal of the source as bytes. -/
def str (s : String) : List UInt8 := s.toList.map fun c => UInt8.ofNat c.toNat

/-- `isspace`. -/
def Daemon.isSpace (c : UInt8) : Bool := c = 0x20 || (0x09 ≤ c && c ≤ 0x0d)

/-- The C string at the front of a buffer, without its terminator. -/
def cstr (bs : List UInt8) : Except Stop (List UInt8) :=
  if 0 ∈ bs then .ok (bs.takeWhile (· ≠ 0)) else .error .overread

/-! ## Sockets -/

/-- The three function pointers of an `asocket`, which are always assigned together. -/
inductive SocketOps
  /-- `local_socket_enqueue`, `local_socket_ready`, `local_socket_close`. -/
  | fd
  /-- As `fd`, with `local_socket_ready_notify` and `local_socket_close_notify`. -/
  | fdNotify
  | remote
  | smart
  | jdwp
  | tracker
  deriving DecidableEq, Repr

/-- `struct asocket` with the fields of `JdwpSocket` (`pass`) and `JdwpTracker`
(`need_update`); the `fdevent` lives in the event loop. -/
structure Asocket where
  id : UInt32 := 0
  closing : Bool := false
  exitOnClose : Bool := false
  peer : Option Addr := none
  fd : ℕ := 0
  /-- `pkt_first` and what follows it. -/
  pkts : List Apacket := []
  ops : SocketOps
  transport : Option TAddr := none
  pass : Bool := false
  needUpdate : Bool := false
  deriving DecidableEq, Repr

/-- The bytes a socket has queued for its descriptor. -/
def Asocket.queued (s : Asocket) : List UInt8 := s.pkts.flatMap Apacket.remaining

/-- A socket that reads and writes a descriptor. -/
def SocketOps.isFd : SocketOps → Bool
  | .fd | .fdNotify => true
  | _ => false

/-! ## Transports -/

inductive ConnectionState
  | offline
  | bootloader
  | device
  | host
  | recovery
  | noperm
  | sideload
  deriving DecidableEq, Repr

inductive TransportType
  | usb
  | loc
  deriving DecidableEq, Repr

/-- Position of `output_thread`. -/
inductive OutputPc
  | start
  | reading
  | sendSync
  | kickTest
  | kickLock
  | kickCall
  | unref
  | done
  deriving DecidableEq, Repr

/-- Position of `input_thread`. -/
inductive InputPc
  | reading
  | closeAll
  | kickTest
  | kickLock
  | kickCall
  | unref
  | done
  deriving DecidableEq, Repr

/-- `struct atransport`, its socket pair and its two threads.  `toMain` and `toInput` are the
packets written to `fd` and to `transport_socket` and not yet read at the other end. -/
structure Atransport where
  type : TransportType
  connectionState : ConnectionState := .offline
  online : Bool := false
  fd : ℕ := 0
  transportSocket : ℕ := 0
  sfd : Option ℕ := none
  refCount : ℕ := 0
  syncToken : UInt32 := 1
  kicked : Bool := false
  serial : Option (List UInt8) := none
  product : Option (List UInt8) := none
  model : Option (List UInt8) := none
  device : Option (List UInt8) := none
  devpath : Option (List UInt8) := none
  /-- The remote sockets whose disconnect records are linked, in list order. -/
  disconnects : List Addr := []
  token : List UInt8 := []
  failedAuthAttempts : UInt32 := 0
  toMain : List Apacket := []
  toInput : List Apacket := []
  output : OutputPc := .done
  input : InputPc := .done
  /-- `active` of `input_thread`. -/
  active : Bool := false
  deriving DecidableEq, Repr

/-- The two actions of a `tmsg`. -/
inductive RegAction
  | register
  | remove
  deriving DecidableEq, Repr

/-! ## JDWP -/

/-- `struct JdwpProcess`; `inBuff` is what has been received, so that `in_len` is its length. -/
structure JdwpProcess where
  addr : ℕ
  pid : Int := -1
  socket : ℕ
  inBuff : List UInt8 := []
  outFds : List ℕ := [0, 0, 0, 0]
  outCount : ℕ := 0
  deriving DecidableEq, Repr

/-! ## The environment -/

/-- The address of an `fdevent`: which struct it is embedded in. -/
inductive FdeId
  | socket (a : Addr)
  | transport (t : TAddr)
  | auth (t : TAddr)
  | authListener
  | registration
  | listener
  | jdwpControl
  | jdwpProcess (p : ℕ)
  | subproc
  deriving DecidableEq, Repr

/-- What a descriptor number was opened for. -/
inductive Desc
  | socket (a : Addr)
  | transportSocket (t : TAddr)
  | transportFd (t : TAddr)
  | sfd (t : TAddr)
  | framework
  | listener (k : FdeId)
  | jdwpProcess
  /-- Anything else: another thread's, or the far end of a service. -/
  | other
  deriving DecidableEq, Repr

/-- Answers of the environment to the system calls of one event, in call order.  A script
that runs out answers `EAGAIN`, and a missing descriptor is a failed `open` or `accept`. -/
structure Io where
  reads : List ReadResult := []
  writes : List WriteResult := []
  fds : List ℕ := []
  /-- What `/dev/urandom` delivers. -/
  token : Option (List UInt8) := none
  /-- Which calls of `fcntl` succeed, all of them when it is used up. -/
  fcntls : List Bool := []
  /-- What `FIONREAD` reports. -/
  fionread : ℕ := 0
  /-- What `read_from_remote` returns. -/
  packet : Option Apacket := none

/-- The history. -/
inductive Obs
  /-- `handle_packet` was called. -/
  | received (t : TAddr) (p : Apacket)
  /-- `send_packet` wrote the packet, on behalf of the remote socket `via` if there is one. -/
  | sent (t : TAddr) (via : Option Addr) (p : Apacket)
  /-- `local_socket_enqueue` was given the payload `bs`, and wrote `out` of it at once. -/
  | enqueued (a : Addr) (bs out : List UInt8)
  /-- `adb_write` accepted bytes of the packets queued on a socket. -/
  | wrote (a : Addr) (bs : List UInt8)
  /-- `adb_write` accepted a part of a status text for the client of a smart socket. -/
  | told (a : Addr) (bs : List UInt8)
  /-- The `FDE_READ` branch of a socket read these bytes. -/
  | read (a : Addr) (bs : List UInt8)
  /-- `adb_write` returned 0 or an error other than `EAGAIN`. -/
  | writeFailed (a : Addr)
  /-- The socket was moved to `local_socket_closing_list` with these bytes queued. -/
  | closing (a : Addr) (bs : List UInt8)
  /-- `local_socket_destroy` was called with these bytes queued. -/
  | destroyed (a : Addr) (bs : List UInt8)
  /-- A remote socket `r` with id `rid` was created on `t` and paired with `a`, whose id is `l`. -/
  | stream (r a : Addr) (l rid : UInt32) (t : TAddr)
  /-- The stream of `r` and `a` was made for an `A_OPEN`. -/
  | opened (r a : Addr)
  /-- An `A_OPEN` of the remote socket `rid` created no socket. -/
  | refused (t : TAddr) (rid : UInt32)
  | put (addr : ℕ)
  /-- `adb_auth_verified` was called. -/
  | verified (t : TAddr)
  /-- `adb_auth_confirm_key` wrote a key to the framework. -/
  | confirm (t : TAddr)
  /-- `adb_auth_event` gave up the framework connection. -/
  | authDropped (t : TAddr)
  | frameworkConnected
  /-- `input_thread` handed the packet to `write_to_remote`. -/
  | toRemote (t : TAddr) (p : Apacket)
  /-- `register_transport` wrote its message. -/
  | registered (t : TAddr) (type : TransportType)
  /-- `remove_transport` wrote its message. -/
  | posted (t : TAddr)
  /-- The main loop read the message. -/
  | fetched (t : TAddr) (act : RegAction)
  /-- `t->kick(t)` was called. -/
  | kick (t : TAddr)
  /-- `t->close(t)` was called. -/
  | close (t : TAddr)
  /-- The number `n` was closed as the descriptor `d` of a transport; `own` tells whether it
  still was that. -/
  | shut (d : Desc) (n : ℕ) (own : Bool)
  deriving DecidableEq, Repr

/-- Settings fixed before the main loop starts. -/
structure Config where
  host : Bool := false
  authEnabled : Bool := true
  uid : ℕ := 0
  recoveryMode : Bool := false
  banner : List UInt8 := str "device"
  values : List (List UInt8) := [str "Linux", str "Systemd", str "GNU"]
  /-- How many packet pointers a transport's socket pair buffers; `none` is no limit. -/
  capacity : Option ℕ := none

/-- A write to a socket pair that holds `n` pointers does not fail with `EAGAIN`. -/
def Config.hasRoom (c : Config) (n : ℕ) : Bool :=
  match c.capacity with
  | none => true
  | some k => n < k

/-! ## The daemon -/

structure Daemon where
  loop : Loop FdeId
  owner : ℕ → Option Desc := fun _ => none
  sockets : Addr → Option Asocket := fun _ => none
  nextAddr : Addr := 0
  localSocketNextId : UInt32 := 1
  localSocketList : List Addr := []
  localSocketClosingList : List Addr := []
  jdwpTrackersList : List Addr := []
  jdwpList : List JdwpProcess := []
  transports : TAddr → Option Atransport := fun _ => none
  nextTAddr : TAddr := 0
  transportList : List TAddr := []
  registration : List (TAddr × RegAction) := []
  frameworkFd : Option ℕ := none
  config : Config := {}
  io : Io := {}
  nextPacket : ℕ := 0
  trace : List Obs := []

namespace Daemon

/-! ## Memory -/

def deref (a : Addr) (D : Daemon) : Except Stop Asocket :=
  match D.sockets a with
  | some s => .ok s
  | none => .error (.freedSocket a)

def derefT (t : TAddr) (D : Daemon) : Except Stop Atransport :=
  match D.transports t with
  | some x => .ok x
  | none => .error (.freedTransport t)

def setSocket (a : Addr) (s : Asocket) (D : Daemon) : Daemon :=
  { D with sockets := Function.update D.sockets a (some s) }

def setTransport (t : TAddr) (x : Atransport) (D : Daemon) : Daemon :=
  { D with transports := Function.update D.transports t (some x) }

/-- `free` of an `asocket`. -/
def freeSocket (a : Addr) (D : Daemon) : Daemon :=
  { D with sockets := Function.update D.sockets a none }

/-- `calloc` of an `asocket`: a new address and a zeroed `fdevent`. -/
def callocSocket (s : Asocket) (D : Daemon) : Addr × Daemon :=
  (D.nextAddr,
    { D with
      sockets := Function.update D.sockets D.nextAddr (some s)
      nextAddr := D.nextAddr + 1
      loop := D.loop.setMem (.socket D.nextAddr) {} })

def emit (o : Obs) (D : Daemon) : Daemon := { D with trace := o :: D.trace }

/-- `get_apacket`. -/
def getApacket (D : Daemon) : Apacket × Daemon :=
  ({ addr := D.nextPacket }, { D with nextPacket := D.nextPacket + 1 })

/-- `put_apacket`. -/
def putApacket (p : Apacket) (D : Daemon) : Daemon := D.emit (.put p.addr)

def putApackets (ps : List Apacket) (D : Daemon) : Daemon :=
  ps.foldl (fun D p => D.putApacket p) D

/-! ## Descriptors -/

/-- The next descriptor an `open`, `accept` or `socketpair` returns, opened for `d`. -/
def takeFd (d : Desc) (D : Daemon) : Except Stop (Option ℕ × Daemon) :=
  match D.io.fds with
  | [] => .ok (none, D)
  | n :: fds => do
    let L ← D.loop.openFd n
    pure (some n, { D with
      loop := L
      owner := Function.update D.owner n (some d)
      io := { D.io with fds := fds } })

def adbClose (n : ℕ) (D : Daemon) : Daemon := { D with loop := D.loop.adbClose n }

/-- The number is open and still the file it was opened for. -/
def holds (n : ℕ) (d : Desc) (D : Daemon) : Bool := D.loop.inUse n && D.owner n = some d

/-- `adb_close` of a descriptor of a transport. -/
def shut (d : Desc) (n : ℕ) (D : Daemon) : Daemon :=
  (D.emit (.shut d n (D.holds n d))).adbClose n

/-- An `fdevent` operation. -/
def onLoop (f : Loop FdeId → Except Stop (Loop FdeId)) (D : Daemon) : Except Stop Daemon := do
  let L ← f D.loop
  pure { D with loop := L }

/-! ## `adb_read`, `adb_write` -/

/-- A loop that writes `bs` until all of it is written or a write does not accept anything:
what was written, how it ended, and the results left over. -/
inductive WriteEnd
  | done
  | again
  | failed
  deriving DecidableEq, Repr

def writeLoop : List UInt8 → List WriteResult → List UInt8 × WriteEnd × List WriteResult
  | [], ws => ([], .done, ws)
  | _ :: _, [] => ([], .again, [])
  | b :: bs, .wrote n :: ws =>
    if n = 0 then ([], .failed, ws)
    else
      let (out, e, ws') := writeLoop ((b :: bs).drop n) ws
      ((b :: bs).take n ++ out, e, ws')
  | b :: bs, .intr :: ws => writeLoop (b :: bs) ws
  | _ :: _, .again :: ws => ([], .again, ws)
  | _ :: _, .fail :: ws => ([], .failed, ws)
termination_by structural _ ws => ws

/-- A loop that reads up to `avail` bytes until a read returns nothing: what was read, whether
it ended in an end of file or an error, and the results left over. -/
def readLoop : ℕ → List ReadResult → List UInt8 × Bool × List ReadResult
  | 0, rs => ([], false, rs)
  | _ + 1, [] => ([], false, [])
  | n + 1, .data bs :: rs =>
    if bs = [] then ([], true, rs)
    else if bs.length ≤ n + 1 then
      let (out, eof, rs') := readLoop (n + 1 - bs.length) rs
      (bs ++ out, eof, rs')
    else (bs.take (n + 1), false, .data (bs.drop (n + 1)) :: rs)
  | n + 1, .intr :: rs => readLoop (n + 1) rs
  | _ + 1, .again :: rs => ([], false, rs)
  | _ + 1, .fail :: rs => ([], true, rs)
termination_by structural _ rs => rs

lemma readLoop_length (n : ℕ) (rs : List ReadResult) : (readLoop n rs).1.length ≤ n := by
  induction rs generalizing n with
  | nil => cases n <;> simp [readLoop]
  | cons r rs ih =>
    cases n with
    | zero => simp [readLoop]
    | succ n =>
      cases r with
      | data bs =>
        rw [readLoop]
        split
        · exact Nat.zero_le _
        split
        case isTrue hle =>
          have := ih (n + 1 - bs.length)
          simp only [List.length_append]
          omega
        case isFalse => exact List.length_take_le ..
      | intr => exact ih (n + 1)
      | again => exact Nat.zero_le _
      | fail => exact Nat.zero_le _

/-- One `adb_write` with its result. -/
def writeSome (bs : List UInt8) : List WriteResult → Option (List UInt8) × List WriteResult
  | .wrote n :: ws => (some (bs.take n), ws)
  | .intr :: ws => writeSome bs ws
  | _ :: ws => (none, ws)
  | [] => (none, [])

/-- One `adb_read` of at most `len` bytes with its result. -/
def readSome (len : ℕ) : List ReadResult → Option (List UInt8) × List ReadResult
  | .data bs :: rs => (some (bs.take len), rs)
  | .intr :: rs => readSome len rs
  | _ :: rs => (none, rs)
  | [] => (none, [])

/-- `writex` to the descriptor of socket `a`. -/
def writexTo (a : Addr) (bs : List UInt8) (D : Daemon) : Bool × Daemon :=
  match writeFull bs D.io.writes with
  | (out, ok, ws) =>
    (ok, { D with io := { D.io with writes := ws } }.emit (.told a out))

/-! ## Packets to a transport -/

/-- The write of `send_packet`: to `transport_socket`, which fails if either end of the pair is
closed or the pair is full. -/
def writePacket (via : Option Addr) (p : Apacket) (t : TAddr) (D : Daemon) :
    Except Stop Daemon := do
  let x ← D.derefT t
  if D.holds x.transportSocket (.transportSocket t) then
    if D.holds x.fd (.transportFd t) then
      if D.config.hasRoom x.toInput.length then
        pure ((D.setTransport t { x with toInput := x.toInput ++ [p] }).emit (.sent t via p))
      else .error (.queueFull t)
    else .error (.cannotEnqueue t)
  else if D.loop.inUse x.transportSocket then .error (.strayDescriptor x.transportSocket)
  else .error (.cannotEnqueue t)

/-- `send_packet`; `via` is the remote socket on whose behalf it is called. -/
def sendPacket (via : Option Addr) (p : Apacket) (t : Option TAddr) (D : Daemon) :
    Except Stop Daemon :=
  match t with
  | none => .ok D
  | some t => D.writePacket via (stamp p) t

/-- `send_packet` of a fresh packet. -/
def sendMsg (via : Option Addr) (m : Amessage) (data : List UInt8) (t : Option TAddr)
    (D : Daemon) : Except Stop Daemon :=
  let (p, D) := D.getApacket
  D.sendPacket via { p with msg := m, data := data } t

end Daemon

end Adbd
