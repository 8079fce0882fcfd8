import Mathlib.Data.Nat.Notation
import Adbd.Framework.Transition

/-!
# Shells and the threads that wait for them (`services.c`, `framebuffer_service.c`)

The main thread opens shells one after another: `create_subprocess` forks a child on a
pseudo-terminal, and `create_subproc_thread` starts a thread that waits for it with `waitpid` and
then writes the descriptor of the terminal to `SHELL_EXIT_NOTIFY_FD`.  Children, waiters and the
main thread take their steps in any order.

Two other services fork a child and wait for it in a thread of their own.  `reboot_service` does
not wait where `fork` has failed; `framebuffer_service` calls `waitpid` on every way out, with −1
where `pipe` or `fork` has failed.

`waitpid` is that of POSIX: a positive argument stands for one child, 0 for the children in the
process group of the caller, −1 for all of them, and a smaller one for a process group.  A child
that has exited keeps its pid until somebody has taken its status.
-/

namespace Adbd

namespace Subprocess

/-! ## Processes -/

inductive Life
  | running
  /-- It has exited, and nobody knows its status. -/
  | zombie
  | reaped
  deriving DecidableEq, Repr

/-- A child of the daemon, named by its place among all that were ever forked. -/
structure Child where
  pid : ℕ
  pgid : ℕ
  life : Life := .running
  /-- `create_subprocess` has forked it. -/
  shell : Bool
  deriving DecidableEq, Repr

/-- Whether `waitpid` with this argument, in process group `group`, waits for the child. -/
def Child.waitedFor (group : ℕ) (pid : Int) (c : Child) : Bool :=
  c.life ≠ .reaped &&
    if 0 < pid then c.pid = pid
    else if pid = 0 then c.pgid = group
    else if pid = -1 then true
    else c.pgid = -pid

/-! ## Threads -/

inductive WaiterPc
  /-- In the loop around `waitpid`. -/
  | waiting
  /-- Behind it, about to notify the main loop. -/
  | exited
  | ended
  deriving DecidableEq, Repr

/-- A thread in `subproc_waiter_service`, with what its `stinfo` says. -/
structure Waiter where
  fd : Int
  pid : Int
  pc : WaiterPc := .waiting
  /-- The child that was forked for the stream, if any: the code keeps its pid only. -/
  child : Option ℕ
  deriving DecidableEq, Repr

/-- The services that fork and wait in one thread. -/
inductive OtherKind
  | reboot
  | framebuffer
  deriving DecidableEq, Repr

/-- A thread of such a service at its `waitpid`, with the argument of the call. -/
structure Other where
  kind : OtherKind
  pid : Int
  waiting : Bool := true
  deriving DecidableEq, Repr

/-- Where the main thread is. -/
inductive MainPc
  | idle
  /-- In `create_subproc_thread`, with what `create_subprocess` has returned and left in `pid`. -/
  | created (retFd pid : Int) (child : Option ℕ)
  deriving DecidableEq, Repr

/-- What is observed. -/
inductive Obs
  /-- `create_subproc_thread` has returned, for the child that was forked. -/
  | returned (child : Option ℕ) (ret : Int)
  /-- A waiter has received the status of a child. -/
  | reaped (w c : ℕ)
  /-- A waiter has written a descriptor to `SHELL_EXIT_NOTIFY_FD`. -/
  | notified (w : ℕ) (fd : Int)
  deriving DecidableEq, Repr

structure State where
  /-- The process group of the daemon. -/
  group : ℕ
  shellExitNotifyFd : Int
  children : List Child := []
  waiters : List Waiter := []
  others : List Other := []
  main : MainPc := .idle
  trace : List Obs := []
  deriving DecidableEq, Repr

/-- The daemon before it has opened a shell: `fdevent_subproc_setup` ends the daemon if it has no
socket pair for `SHELL_EXIT_NOTIFY_FD`. -/
def initial (group notifyFd : ℕ) : State where
  group := group
  shellExitNotifyFd := notifyFd

/-! ## Opening a shell -/

/-- How `create_subprocess` goes. -/
inductive Creation
  /-- `open("/dev/ptmx")` fails. -/
  | noPtmx
  /-- `grantpt`, `unlockpt` or `ptsname` fails. -/
  | noPty
  | noFork
  | forked (ptm pid : ℕ)
  deriving DecidableEq, Repr

inductive Halt
  /-- The step is not possible, or the thread is blocked. -/
  | blocked
  deriving DecidableEq

/-- `fork` gives a pid that no child has whose status is still to be taken. -/
def freshPid (pid : ℕ) (s : State) : Bool :=
  0 < pid && s.children.all fun c => c.life = .reaped || c.pid ≠ pid

/-- `create_subprocess`, as `create_subproc_thread` calls it with `pid` set to 0. -/
def createSubprocess (r : Creation) (s : State) : Except Halt State :=
  match r with
  | .noPtmx | .noPty => .ok { s with main := .created (-1) 0 none }
  | .noFork => .ok { s with main := .created (-1) (-1) none }
  | .forked ptm pid =>
    if freshPid pid s then
      .ok { s with
        children := s.children ++ [{ pid := pid, pgid := s.group, shell := true }]
        main := .created ptm pid (some s.children.length) }
    else .error .blocked

/-- The rest of `create_subproc_thread`; `ok` tells whether `adb_thread_create` succeeds. -/
def createSubprocThread (ok : Bool) (s : State) : Except Halt State :=
  match s.main with
  | .idle => .error .blocked
  | .created retFd pid child =>
    if ok then
      .ok { s with
        waiters := s.waiters ++ [{ fd := retFd, pid := pid, child := child }]
        main := .idle
        trace := .returned child retFd :: s.trace }
    else .ok { s with main := .idle, trace := .returned child (-1) :: s.trace }

/-! ## Waiting -/

/-- How `waitpid` returns. -/
inductive WaitResult
  /-- `EINTR`. -/
  | interrupted
  /-- With the status of a child. -/
  | status (c : ℕ)
  /-- `ECHILD`. -/
  | noChild
  deriving DecidableEq, Repr

/-- The return value of `waitpid`, and the children afterwards. -/
def waitpid (pid : Int) (r : WaitResult) (s : State) : Except Halt (Int × List Child) :=
  match r with
  | .interrupted => .ok (-1, s.children)
  | .status i =>
    match s.children[i]? with
    | none => .error .blocked
    | some c =>
      if c.life = .zombie && c.waitedFor s.group pid then
        .ok (c.pid, s.children.set i { c with life := .reaped })
      else .error .blocked
  | .noChild =>
    if s.children.any (·.waitedFor s.group pid) then .error .blocked else .ok (-1, s.children)

/-- What a waiter has taken from `waitpid`. -/
def WaitResult.observed (w : ℕ) : WaitResult → List Obs
  | .status i => [.reaped w i]
  | .interrupted | .noChild => []

/-- One round of the loop of `subproc_waiter_service`.  Whatever the status is, and also where
`waitpid` has not set it, one of the tests behind the call breaks the loop: `WEXITSTATUS` is
never negative. -/
def waiterRound (w : ℕ) (r : WaitResult) (s : State) : Except Halt State :=
  match s.waiters[w]? with
  | none => .error .blocked
  | some v =>
    if v.pc = .waiting then
      match waitpid v.pid r s with
      | .error e => .error e
      | .ok (ret, children) =>
        .ok { s with
          children := children
          waiters := if ret = v.pid then s.waiters.set w { v with pc := .exited } else s.waiters
          trace := r.observed w ++ s.trace }
    else .error .blocked

/-- The end of `subproc_waiter_service`, and of the thread. -/
def waiterNotify (w : ℕ) (s : State) : Except Halt State :=
  match s.waiters[w]? with
  | none => .error .blocked
  | some v =>
    if v.pc = .exited then
      .ok { s with
        waiters := s.waiters.set w { v with pc := .ended }
        trace := if 0 ≤ s.shellExitNotifyFd then .notified w v.fd :: s.trace else s.trace }
    else .error .blocked

/-! ## Other services -/

/-- `reboot_service` or `framebuffer_service` up to its `waitpid`: `fork` gives a pid, or it or, for
`framebuffer_service`, `pipe` before it fails. -/
def otherFork (k : OtherKind) (r : Option ℕ) (s : State) : Except Halt State :=
  match r with
  | some pid =>
    if freshPid pid s then
      .ok { s with
        children := s.children ++ [{ pid := pid, pgid := s.group, shell := false }]
        others := s.others ++ [{ kind := k, pid := pid }] }
    else .error .blocked
  | none =>
    match k with
    | .reboot => .ok s
    | .framebuffer => .ok { s with others := s.others ++ [{ kind := k, pid := -1 }] }

/-- The `waitpid` of such a thread returns.  `framebuffer_service` repeats an interrupted call, and
otherwise the result is not looked at. -/
def otherWait (o : ℕ) (r : WaitResult) (s : State) : Except Halt State :=
  match s.others[o]? with
  | none => .error .blocked
  | some t =>
    if t.waiting then
      match waitpid t.pid r s with
      | .error e => .error e
      | .ok (_, children) =>
        .ok { s with
          children := children
          others := if r = .interrupted ∧ t.kind = .framebuffer then s.others
            else s.others.set o { t with waiting := false } }
    else .error .blocked

/-! ## Steps -/

/-- Who takes the next step. -/
inductive Move
  | create (r : Creation)
  | thread (ok : Bool)
  | round (w : ℕ) (r : WaitResult)
  | notify (w : ℕ)
  /-- A child calls `setsid`. -/
  | setsid (c : ℕ)
  /-- A child exits, or is killed. -/
  | exit (c : ℕ)
  | otherFork (k : OtherKind) (r : Option ℕ)
  | otherWait (o : ℕ) (r : WaitResult)
  deriving DecidableEq, Repr

/-- A child that is in one state goes to another. -/
def changeChild (i : ℕ) (p : Child → Bool) (f : Child → Child) (s : State) : Except Halt State :=
  match s.children[i]? with
  | none => .error .blocked
  | some c => if p c then .ok { s with children := s.children.set i (f c) } else .error .blocked

def step (m : Move) (s : State) : Except Halt State :=
  match m with
  | .create r => if s.main = .idle then createSubprocess r s else .error .blocked
  | .thread ok => createSubprocThread ok s
  | .round w r => waiterRound w r s
  | .notify w => waiterNotify w s
  | .setsid i =>
    changeChild i (fun c => c.life = .running && c.shell) (fun c => { c with pgid := c.pid }) s
  | .exit i => changeChild i (fun c => c.life = .running) (fun c => { c with life := .zombie }) s
  | .otherFork k r => otherFork k r s
  | .otherWait o r => otherWait o r s

end Subprocess

end Adbd
