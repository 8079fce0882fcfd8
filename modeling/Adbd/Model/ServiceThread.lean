import Adbd.Framework.Transition
import Adbd.Model.Services

/-!
# Services with a thread of their own (`services.c`, `log_service.c`)

`Adbd.Model.Services` ends with the descriptor that `service_to_fd` returns.  Here are the call of
`create_service_thread` behind it and the heap objects it deals in: the `stinfo`, and the cookie
of the two services that get one, the argument of `reboot:` and the path of `log:`.

From `adb_thread_create` on the main thread and the service's thread take turns in any order, and
so does the child that `reboot_service` forks, which has the memory of the daemon as it was then.
An address is never handed out twice, so that it stands for one object; every use of the heap is
recorded.
-/

namespace Adbd

namespace ServiceThread

open Function Daemon

/-! ## Memory -/

/-- The functions that `create_service_thread` is given. -/
inductive Func
  | framebufferService
  | recoverService
  | logService
  | fileSyncService
  | remountService
  | rebootService
  | restartTcpService
  | restartUsbService
  deriving DecidableEq, Repr

/-- A `void*cookie`: a number, or a heap address.  A variable that has not been assigned is
`word none`. -/
inductive Cookie
  | word (n : Option Int)
  | ptr (a : ℕ)
  deriving DecidableEq, Repr

/-- `stinfo`. -/
structure Stinfo where
  func : Func
  fd : ℕ
  cookie : Cookie
  deriving DecidableEq, Repr

/-- What a heap address may hold. -/
inductive Obj
  | text (bs : List UInt8)
  | stinfo (i : Stinfo)
  deriving DecidableEq, Repr

/-- A use of the heap; `read a none` reads an object that has been released. -/
inductive MemOp
  | malloc (a : ℕ) (o : Obj)
  | read (a : ℕ) (seen : Option Obj)
  | free (a : ℕ)
  deriving DecidableEq, Repr

/-! ## The threads -/

/-- Where the main thread is. -/
inductive MainPc
  | serviceToFd
  /-- Another branch of `service_to_fd` is taken, none of which allocates a cookie. -/
  | otherBranch
  | createServiceThread (func : Func) (cookie : Cookie)
  | threadCreate (func : Func) (cookie : Cookie) (s0 s1 sti : ℕ)
  /-- `create_service_thread` has returned to `service_to_fd`. -/
  | back (func : Func) (cookie : Cookie) (ret : Option ℕ)
  | returned (ret : Option ℕ)
  /-- The daemon is gone. -/
  | exited
  deriving DecidableEq, Repr

/-- Where the service's thread is. -/
inductive ThreadPc
  | notCreated
  | bootstrap (sti : ℕ)
  /-- Inside a service whose cookie is not an address. -/
  | service (sti : ℕ)
  | rebootFork (sti fd : ℕ) (arg : Cookie)
  | rebootWait (sti fd : ℕ) (arg : Cookie)
  | rebootFree (sti fd : ℕ) (arg : Cookie)
  | logOpen (sti fd : ℕ) (path : Cookie)
  | logRead (sti fd : ℕ) (path : Cookie)
  | logDone (sti fd : ℕ) (path : Cookie)
  | freeStinfo (sti : ℕ)
  | ended
  deriving DecidableEq, Repr

/-- The child of `reboot_service`. -/
inductive ChildPc
  | none
  | exec (memory : ℕ → Option Obj) (arg : Cookie)
  | gone

structure State where
  next : ℕ := 0
  heap : ℕ → Option Obj := fun _ => none
  trace : List MemOp := []
  main : MainPc := .serviceToFd
  thread : ThreadPc := .notCreated
  child : ChildPc := .none

namespace State

/-- `malloc`, and the first stores to the object. -/
def malloc (o : Obj) (s : State) : State :=
  { s with
    next := s.next + 1
    heap := update s.heap s.next (some o)
    trace := .malloc s.next o :: s.trace }

def free (a : ℕ) (s : State) : State :=
  { s with heap := update s.heap a none, trace := .free a :: s.trace }

/-- `free(cookie)`. -/
def freeCookie : Cookie → State → State
  | .word _, s => s
  | .ptr a, s => s.free a

@[simp] lemma freeCookie_child (cookie : Cookie) (s : State) :
    (freeCookie cookie s).child = s.child := by
  cases cookie <;> rfl

@[simp] lemma freeCookie_main (cookie : Cookie) (s : State) :
    (freeCookie cookie s).main = s.main := by
  cases cookie <;> rfl

/-- Reading what a cookie points to in a process with this memory. -/
def readCookie (memory : ℕ → Option Obj) : Cookie → State → State
  | .word _, s => s
  | .ptr a, s => { s with trace := .read a (memory a) :: s.trace }

@[simp] lemma readCookie_main (memory : ℕ → Option Obj) (cookie : Cookie) (s : State) :
    (readCookie memory cookie s).main = s.main := by
  cases cookie <;> rfl

@[simp] lemma readCookie_thread (memory : ℕ → Option Obj) (cookie : Cookie) (s : State) :
    (readCookie memory cookie s).thread = s.thread := by
  cases cookie <;> rfl

@[simp] lemma readCookie_heap (memory : ℕ → Option Obj) (cookie : Cookie) (s : State) :
    (readCookie memory cookie s).heap = s.heap := by
  cases cookie <;> rfl

@[simp] lemma readCookie_next (memory : ℕ → Option Obj) (cookie : Cookie) (s : State) :
    (readCookie memory cookie s).next = s.next := by
  cases cookie <;> rfl

end State

/-! ## `service_to_fd` -/

/-- The argument for the cookie in a call of `create_service_thread`. -/
inductive Argument
  | word (n : Option Int)
  /-- `strdup`, tested for failure. -/
  | strdup (bs : List UInt8)
  /-- `get_log_file_path`. -/
  | logFilePath (logName : List UInt8)
  deriving DecidableEq, Repr

/-- `(void*)0`. -/
def Argument.null : Argument := .word (some 0)

/-- `sscanf("%d")` into a variable without a value, set to 0 if nothing matches: at the end of
the text `sscanf` returns `EOF`, and the variable keeps what was in it. -/
def scanPort (bs : List UInt8) : Option Int :=
  if bs.dropWhile isSpace = [] then none else some (atoi bs)

/-- The branches of `service_to_fd` that call `create_service_thread`. -/
def serviceThread (c : Config) (name : List UInt8) : Option (Func × Argument) :=
  if startsWith name "tcp:" || startsWith name "local:" || startsWith name "localreserved:" ||
      startsWith name "localabstract:" || startsWith name "localfilesystem:" ||
      startsWith name "dev:" then none
  else if startsWith name "framebuffer:" then some (.framebufferService, .null)
  else if c.recoveryMode && startsWith name "recover:" then
    some (.recoverService, .word (some (atoi (name.drop 8))))
  else if startsWith name "jdwp:" then none
  else if startsWith name "log:" then some (.logService, .logFilePath (name.drop 4))
  else if !c.host && startsWith name "shell:" then none
  else if startsWith name "sync:" then some (.fileSyncService, .null)
  else if startsWith name "remount:" then some (.remountService, .null)
  else if startsWith name "reboot:" then some (.rebootService, .strdup (name.drop 7))
  else if startsWith name "tcpip:" then
    some (.restartTcpService, .word (scanPort (name.drop 6)))
  else if startsWith name "usb:" then some (.restartUsbService, .null)
  else none

/-- The text that `get_log_file_path` puts into its allocation. -/
def getLogFilePath (logName : List UInt8) : List UInt8 := str "/var/log/" ++ logName

/-- How the calls of the main thread end. -/
structure Calls where
  /-- `strdup` or the `malloc` of `get_log_file_path` succeeds. -/
  allocates : Bool
  /-- The two ends that `adb_socketpair` makes. -/
  socketpair : Option (ℕ × ℕ)
  /-- The `malloc` of the `stinfo` succeeds. -/
  allocatesStinfo : Bool
  /-- `adb_thread_create` succeeds. -/
  threadCreate : Bool

/-! ## Steps -/

inductive Halt
  /-- There is nothing left to do. -/
  | idle
  /-- An `stinfo` is used that has been released. -/
  | released
  deriving DecidableEq

/-- The main thread. -/
def stepMain (c : Config) (name : List UInt8) (k : Calls) (s : State) : Except Halt State :=
  match s.main with
  | .serviceToFd =>
    match serviceThread c name with
    | none => .ok { s with main := .otherBranch }
    | some (func, .word n) => .ok { s with main := .createServiceThread func (.word n) }
    | some (func, .strdup bs) =>
      if k.allocates then
        .ok { s.malloc (.text bs) with main := .createServiceThread func (.ptr s.next) }
      else .ok { s with main := .returned none }
    | some (func, .logFilePath logName) =>
      if k.allocates then
        .ok { s.malloc (.text (getLogFilePath logName)) with
          main := .createServiceThread func (.ptr s.next) }
      -- `strcpy` to a null pointer
      else .ok { s with main := .exited }
  | .createServiceThread func cookie =>
    match k.socketpair with
    | none => .ok { s with main := .back func cookie none }
    | some (s0, s1) =>
      if k.allocatesStinfo then
        .ok { s.malloc (.stinfo ⟨func, s1, cookie⟩) with
          main := .threadCreate func cookie s0 s1 s.next }
      -- `fatal`
      else .ok { s with main := .exited }
  | .threadCreate func cookie s0 _ sti =>
    if k.threadCreate then
      .ok { s with thread := .bootstrap sti, main := .back func cookie (some s0) }
    else .ok { s.free sti with main := .back func cookie none }
  | .back func cookie ret =>
    if func = .rebootService then .ok { s.freeCookie cookie with main := .returned ret }
    else .ok { s with main := .returned ret }
  | .otherBranch | .returned _ | .exited => .error .idle

/-- `service_bootstrap_func` calls the function of the `stinfo`. -/
def bootstrap (sti : ℕ) (i : Stinfo) : ThreadPc :=
  match i.func with
  | .rebootService => .rebootFork sti i.fd i.cookie
  | .logService => .logOpen sti i.fd i.cookie
  | _ => .service sti

/-- The service's thread; `ok` tells how the call it makes ends: whether `fork` and `unix_open`
succeed, and whether the loop of `log_service` goes on after a `unix_read`. -/
def stepThread (ok : Bool) (s : State) : Except Halt State :=
  match s.thread with
  | .bootstrap sti =>
    match s.heap sti with
    | some (.stinfo i) =>
      .ok { s with
        trace := .read sti (s.heap sti) :: s.trace
        thread := bootstrap sti i }
    | _ => .error .released
  | .service sti => .ok { s with thread := .freeStinfo sti }
  | .rebootFork sti fd arg =>
    if ok then .ok { s with child := .exec s.heap arg, thread := .rebootWait sti fd arg }
    else .ok { s with thread := .rebootFree sti fd arg }
  | .rebootWait sti fd arg => .ok { s with thread := .rebootFree sti fd arg }
  | .rebootFree sti _ arg => .ok { s.freeCookie arg with thread := .freeStinfo sti }
  | .logOpen sti fd path =>
    .ok { s.readCookie s.heap path with
      thread := if ok then .logRead sti fd path else .logDone sti fd path }
  | .logRead sti fd path => if ok then .ok s else .ok { s with thread := .logDone sti fd path }
  | .logDone sti _ path => .ok { s.freeCookie path with thread := .freeStinfo sti }
  | .freeStinfo sti => .ok { s.free sti with thread := .ended }
  | .notCreated | .ended => .error .idle

/-- The child of `reboot_service` calls `execl`, and reboots or exits if that returns. -/
def stepChild (s : State) : Except Halt State :=
  match s.child with
  | .exec memory arg => .ok { s.readCookie memory arg with child := .gone }
  | .none | .gone => .error .idle

/-- Who takes the next step. -/
inductive Move
  | main
  | thread (ok : Bool)
  | child

def step (c : Config) (name : List UInt8) (k : Calls) : Move → State → Except Halt State
  | .main, s => stepMain c name k s
  -- `exit` ends every thread, but not the child
  | .thread ok, s => if s.main = .exited then .error .idle else stepThread ok s
  | .child, s => stepChild s

end ServiceThread

end Adbd
