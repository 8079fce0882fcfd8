import Adbd.Model.Jdwp

/-!
# Services (`services.c`, `jdwp_service.c`)

What an `A_OPEN` can start.  The far end of a service (a thread, a child process, another
program) belongs to the environment; this file decides which names are services, which
descriptors are opened for them and what kind of socket serves them.
-/

namespace Adbd

open Syscall

namespace Daemon

/-! ## JDWP processes -/

/-- `jdwp_process_list_updated`: one message to every tracker, walking the list. -/
def notifyTrackers (msg : List UInt8) : List Addr → Daemon → Except Stop Daemon
  | [], D => pure D
  | a :: rest, D => do
    D.touchTrackers [a]
    let s ← D.deref a
    let (p, D) := D.getApacket
    let peer ← peerOf a s
    let (_, D) ← D.enqueue peer { p with len := msg.length, data := msg }
    notifyTrackers msg rest D

def jdwpProcessListUpdated (D : Daemon) : Except Stop Daemon :=
  D.notifyTrackers (jdwpProcessListMsg 1024 D.jdwpList) D.jdwpTrackersList

/-- `jdwp_process_free`. -/
def jdwpProcessFree (proc : JdwpProcess) (D : Daemon) : Except Stop Daemon := do
  let D := { D with jdwpList := D.jdwpList.erase proc }
  let D := D.adbClose proc.socket
  let D ← D.onLoop (Loop.fdeventRemove (.jdwpProcess proc.addr))
  let D := proc.pending.foldl (fun D n => D.adbClose n) D
  D.jdwpProcessListUpdated

/-- `jdwp_process_alloc`: the flag is set before the first subscription. -/
def jdwpProcessAlloc (socket : ℕ) (D : Daemon) : Except Stop Daemon := do
  let k := FdeId.jdwpProcess D.nextAddr
  let proc : JdwpProcess := { addr := D.nextAddr, socket := socket }
  let D := { D with nextAddr := D.nextAddr + 1 }
  let D ← D.onLoop (Loop.fdeventCreate k socket)
  let fde := D.loop.mem k
  let D := { D with
    loop := D.loop.setMem k { fde with state := fde.state ||| fdeDontClose }
    jdwpList := D.jdwpList ++ [proc] }
  D.onLoop (Loop.fdeventAdd k fdeRead)

/-- `jdwp_control_event`. -/
def jdwpControlEvent (ev : BitVec 16) (D : Daemon) : Except Stop Daemon :=
  if FlagWord.has ev fdeRead then do
    let (fd, D) ← D.takeFd .jdwpProcess
    match fd with
    | none => pure D
    | some n => D.jdwpProcessAlloc n
  else pure D

def setProcess (proc : JdwpProcess) (D : Daemon) : Daemon :=
  { D with jdwpList := D.jdwpList.map fun q => if q.addr = proc.addr then proc else q }

def setReads (rs : List ReadResult) (D : Daemon) : Daemon :=
  { D with io := { D.io with reads := rs } }

def setWrites (ws : List WriteResult) (D : Daemon) : Daemon :=
  { D with io := { D.io with writes := ws } }

def setFcntls (cs : List Bool) (D : Daemon) : Daemon :=
  { D with io := { D.io with fcntls := cs } }

/-- The `FDE_READ` branch of `jdwp_process_event`; the flag tells whether the function goes on
to the next branch. -/
def jdwpProcessReadable (proc : JdwpProcess) (D : Daemon) : Except Stop (Bool × Daemon) := do
  let (outcome, proc', rs) := proc.readable D.io.reads
  let D := (D.setReads rs).setProcess proc'
  match outcome with
  | .wait => pure (false, D)
  | .close =>
    let D ← D.jdwpProcessFree proc'
    pure (false, D)
  | .known =>
    let D ← D.jdwpProcessListUpdated
    pure (true, D)

/-- The `FDE_WRITE` branch of `jdwp_process_event`: pass one descriptor on. -/
def jdwpProcessWritable (proc : JdwpProcess) (D : Daemon) : Except Stop Daemon := do
  let (outcome, proc', cs, ws) := proc.writable D.io.fcntls D.io.writes
  let D := ((D.setFcntls cs).setWrites ws).setProcess proc'
  match outcome with
  | .idle => pure D
  | .failed none => D.jdwpProcessFree proc'
  | .failed (some n) => (D.adbClose n).jdwpProcessFree proc'
  | .sent n =>
    let D := D.adbClose n
    if proc'.outCount = 0 then D.onLoop (Loop.fdeventDel (.jdwpProcess proc.addr) fdeWrite)
    else pure D

/-- The process whose `fdevent` is `.jdwpProcess i`. -/
def findProcess (i : ℕ) (D : Daemon) : Except Stop JdwpProcess :=
  match D.jdwpList.find? fun q => q.addr = i with
  | some proc => .ok proc
  | none => .error .disabled

/-- `jdwp_process_event`. -/
def jdwpProcessEvent (ev : BitVec 16) (i : ℕ) (D : Daemon) : Except Stop Daemon := do
  let proc ← D.findProcess i
  let (more, D) ← (if FlagWord.has ev fdeRead then D.jdwpProcessReadable proc
    else pure (true, D))
  if more && FlagWord.has ev fdeWrite then
    let proc ← D.findProcess i
    D.jdwpProcessWritable proc
  else pure D

/-- `create_jdwp_connection_fd`. -/
def createJdwpConnectionFd (pid : Int) (D : Daemon) : Except Stop (Option ℕ × Daemon) :=
  match D.jdwpList.find? fun q => q.pid = pid with
  | none => pure (none, D)
  | some proc =>
    if maxOutFds ≤ proc.outCount then pure (none, D)
    else do
      let (a, D) ← D.takeFd (.socket D.nextAddr)
      let (b, D) ← D.takeFd .other
      match a, b with
      | some n, some m =>
        let D := D.setProcess (proc.enqueue m)
        let D ← (if proc.outCount = 0 then
            D.onLoop (Loop.fdeventAdd (.jdwpProcess proc.addr) fdeWrite)
          else pure D)
        pure (some n, D)
      | _, _ => .error .disabled

/-! ## Service names -/

/-- How a service is started. -/
inductive Launch
  /-- A connection or a device: one descriptor. -/
  | direct
  /-- `create_service_thread`: a socket pair. -/
  | thread
  /-- `create_subproc_thread`: a pseudo-terminal. -/
  | subproc
  /-- `create_jdwp_connection_fd`. -/
  | jdwp (pid : Int)
  deriving DecidableEq, Repr

/-- `strtol` in base 10, without the limits of a `long`. -/
def strtol (bs : List UInt8) : Int :=
  let value := fun ds : List UInt8 =>
    Int.ofNat ((ds.takeWhile fun c => 0x30 ≤ c ∧ c ≤ 0x39).foldl
      (fun n c => 10 * n + (c.toNat - 0x30)) 0)
  match bs.dropWhile isSpace with
  | 0x2d :: ds => -value ds
  | 0x2b :: ds => value ds
  | ds => value ds

/-- `atoi`: `strtol`, which stops at the limits of a `long` of 64 bits, cut to an `int`. -/
def atoi (bs : List UInt8) : Int :=
  (max (-2 ^ 63) (min (2 ^ 63 - 1) (strtol bs))).bmod (2 ^ 32)

/-- `strncmp(name,prefix,strlen(prefix))==0`. -/
def startsWith (name : List UInt8) (lead : String) : Bool := (str lead).isPrefixOf name

lemma startsWith_iff {name : List UInt8} {lead : String} :
    startsWith name lead = true ↔ ∃ rest, name = str lead ++ rest := by
  rw [startsWith, List.isPrefixOf_iff_prefix]
  constructor
  · rintro ⟨rest, h⟩
    exact ⟨rest, h.symm⟩
  · rintro ⟨rest, h⟩
    exact ⟨rest, h.symm⟩

/-- The cascade of `service_to_fd`; `none` is an unknown or malformed name. -/
def launchOf (c : Config) (name : List UInt8) : Option Launch :=
  if startsWith name "tcp:" then
    if 0x3a ∈ name.drop 4 then none else some .direct
  else if startsWith name "local:" || startsWith name "localreserved:" ||
      startsWith name "localabstract:" || startsWith name "localfilesystem:" ||
      startsWith name "dev:" then some .direct
  else if startsWith name "framebuffer:" then some .thread
  else if c.recoveryMode && startsWith name "recover:" then some .thread
  else if startsWith name "jdwp:" then some (.jdwp (atoi (name.drop 5)))
  else if startsWith name "log:" then some .thread
  else if !c.host && startsWith name "shell:" then some .subproc
  else if startsWith name "sync:" || startsWith name "remount:" || startsWith name "reboot:" ||
      startsWith name "tcpip:" || startsWith name "usb:" then some .thread
  else none

/-- `service_to_fd`; the descriptor is the one of the socket about to be created. -/
def serviceToFd (name : List UInt8) (D : Daemon) : Except Stop (Option ℕ × Daemon) :=
  match launchOf D.config name with
  | none => pure (none, D)
  | some (.jdwp pid) => D.createJdwpConnectionFd pid
  | some .thread => do
    let (near, D) ← D.takeFd (.socket D.nextAddr)
    let (far, D) ← D.takeFd .other
    match near, far with
    | none, _ => pure (none, D)
    | some n, some _ => pure (some n, D)
    | some _, none => .error .disabled
  | some _ => D.takeFd (.socket D.nextAddr)

/-- The condition under which `create_local_service_socket` sets `exit_on_close`. -/
def exitsOnClose (c : Config) (name : List UInt8) : Bool :=
  (startsWith name "root:" && c.uid ≠ 0) || startsWith name "usb:" || startsWith name "tcpip:"

/-- `create_local_service_socket`. -/
def createLocalServiceSocket (name : List UInt8) (D : Daemon) :
    Except Stop (Option Addr × Daemon) := do
  if name = str "jdwp" then
    let (a, D) ← D.createJdwpServiceSocket
    pure (some a, D)
  else if name = str "track-jdwp" then
    let (a, D) ← D.createJdwpTrackerServiceSocket
    pure (some a, D)
  else
    let (fd, D) ← D.serviceToFd name
    match fd with
    | none => pure (none, D)
    | some n =>
      let (a, D) ← D.createLocalSocket n
      let s ← D.deref a
      let D := if exitsOnClose D.config name then D.setSocket a { s with exitOnClose := true }
        else D
      pure (some a, D)

/-- `ss_listener_event_func`. -/
def ssListenerEventFunc (ev : BitVec 16) (D : Daemon) : Except Stop Daemon :=
  if FlagWord.has ev fdeRead then do
    let (fd, D) ← D.takeFd (.socket D.nextAddr)
    match fd with
    | none => pure D
    | some n =>
      let (a, D) ← D.createLocalSocket n
      D.connectToSmartsocket a
  else pure D

end Daemon

end Adbd
