import Mathlib.Logic.Function.Basic
import Adbd.Framework.FlagWord
import Adbd.Model.Base

/-!
# The event loop (`fdevent.c`)

The layer is generic in the identity `κ` of an `fdevent` (the address of the struct, wherever
it is embedded); the callback and its argument are what `κ` stands for, so they are not fields
here.  `Loop` holds the memory of the `fdevent` structs, the pending list, `fd_table`, and the
two kernel objects the layer talks to: the descriptor table and the interest list of the epoll
descriptor.

The `state` word is kept packed as in the source: the subscription lives in the low byte
(`FDE_EVENTMASK`), the bookkeeping flags in the high byte (`FDE_STATEMASK`), and
`FDE_DONT_CLOSE` (`0x0080`) lies in the *low* byte.
-/

namespace Adbd

open FlagWord

/-! ## Constants of `fdevent.h` and `fdevent.c` -/

def fdeRead : BitVec 16 := 0x0001#16
def fdeWrite : BitVec 16 := 0x0002#16
def fdeError : BitVec 16 := 0x0004#16
def fdeDontClose : BitVec 16 := 0x0080#16
def fdeEventMask : BitVec 16 := 0x00ff#16
def fdeStateMask : BitVec 16 := 0xff00#16
def fdeActive : BitVec 16 := 0x0100#16
def fdePending : BitVec 16 := 0x0200#16
def fdeCreated : BitVec 16 := 0x0400#16

/-! ## State -/

/-- `struct fdevent`, less its links and its callback. -/
structure Fdevent where
  fd : ℕ := 0
  forceEof : Bool := false
  state : BitVec 16 := 0#16
  events : BitVec 16 := 0#16
  deriving DecidableEq, Repr

/-- A slot of `fd_table`; `wild` is memory fresh from `realloc` that nobody has written. -/
inductive Slot (κ : Type)
  | null
  | fde (k : κ)
  | wild
  deriving DecidableEq, Repr

/-- The events of a `struct epoll_event`; `pollErr` stands for `EPOLLERR|EPOLLHUP`. -/
structure EpollMask where
  pollIn : Bool
  pollOut : Bool
  pollErr : Bool
  deriving DecidableEq, Repr

/-- `ev.events != 0`. -/
def EpollMask.nonzero (m : EpollMask) : Bool := m.pollIn || m.pollOut || m.pollErr

/-- The state of `fdevent.c` and of the kernel objects it uses. -/
structure Loop (κ : Type) where
  /-- The `fdevent` structs. -/
  mem : κ → Fdevent
  /-- `list_pending`, head first. -/
  listPending : List κ
  fdTable : ℕ → Slot κ
  fdTableMax : ℕ
  /-- What memory new from `realloc` holds at each index of the table. -/
  fill : ℕ → Slot κ
  /-- Descriptor table of the process: the numbers that are open. -/
  inUse : ℕ → Bool
  /-- Interest list of `epoll_fd`: events asked for and `data.ptr`, by descriptor. -/
  interest : ℕ → Option (EpollMask × κ)

namespace Loop

variable {κ : Type} [DecidableEq κ]

def setMem (k : κ) (f : Fdevent) (L : Loop κ) : Loop κ :=
  { L with mem := Function.update L.mem k f }

/-! ## The kernel's side -/

/-- `adb_close`: the number is free again and leaves every interest list. -/
def adbClose (n : ℕ) (L : Loop κ) : Loop κ :=
  { L with inUse := Function.update L.inUse n false,
           interest := Function.update L.interest n none }

/-- A system call that returned descriptor `n`, which therefore was not open before. -/
def openFd (n : ℕ) (L : Loop κ) : Except Stop (Loop κ) :=
  if L.inUse n then .error .disabled
  else .ok { L with inUse := Function.update L.inUse n true }

inductive CtlOp
  | add
  | mod
  | del
  deriving DecidableEq, Repr

/-- `epoll_ctl`, with the failures `EEXIST`, `ENOENT` and `EBADF`.  Descriptors are of kinds that
can be polled: `EPERM`, which a regular file opened by `dev:` would get, is left out, and would
end the daemon like the other failures. -/
def epollCtl (op : CtlOp) (n : ℕ) (ev : EpollMask) (k : κ) (L : Loop κ) :
    Except Stop (Loop κ) :=
  match op with
  | .add =>
    if L.inUse n && (L.interest n).isNone then
      .ok { L with interest := Function.update L.interest n (some (ev, k)) }
    else .error (.epollCtl n)
  | .mod =>
    if (L.interest n).isSome then
      .ok { L with interest := Function.update L.interest n (some (ev, k)) }
    else .error (.epollCtl n)
  | .del =>
    if (L.interest n).isSome then
      .ok { L with interest := Function.update L.interest n none }
    else .error (.epollCtl n)

/-! ## `fdevent_disconnect`, `fdevent_update`

`fdevent_connect` prepares a `struct epoll_event` and does nothing with it, so it has no
counterpart here. -/

/-- `fdevent_disconnect`: `EPOLL_CTL_DEL` with its result ignored. -/
def fdeventDisconnect (k : κ) (L : Loop κ) : Loop κ :=
  { L with interest := Function.update L.interest (L.mem k).fd none }

/-- The `EPOLLIN`/`EPOLLOUT`/`EPOLLERR` bits for a set of `FDE_*` events. -/
def epollMask (events : BitVec 16) : EpollMask :=
  ⟨has events fdeRead, has events fdeWrite, has events fdeError⟩

/-- `fdevent_update`: the low byte of `state` tells whether the descriptor is registered. -/
def fdeventUpdate (k : κ) (events : BitVec 16) (L : Loop κ) : Except Stop (Loop κ) :=
  let fde := L.mem k
  let active := has fde.state fdeEventMask
  let ev := epollMask events
  let L := L.setMem k { fde with state := (fde.state &&& fdeStateMask) ||| events }
  if ev.nonzero then
    if active then epollCtl .mod fde.fd ev k L else epollCtl .add fde.fd ev k L
  else if active then epollCtl .del fde.fd ev k L
  else .ok L

/-! ## `fd_table` -/

/-- `while(fd_table_max<=fd) fd_table_max*=2`, for descriptors up to 32000. -/
def growTable : ℕ → ℕ → ℕ → ℕ
  | 0, max, _ => max
  | fuel + 1, max, fd => if max ≤ fd then growTable fuel (2 * max) fd else max

/-- `fdevent_register`.  The `memset` of the new part of the table clears
`sizeof(int)` bytes for each slot of pointer size, so only its first half. -/
def fdeventRegister (k : κ) (L : Loop κ) : Except Stop (Loop κ) :=
  let fd := (L.mem k).fd
  if L.fdTableMax ≤ fd then
    if 32000 < fd then .error (.fatalFd fd)
    else
      let oldmax := L.fdTableMax
      let max := growTable 8 (if oldmax = 0 then 256 else oldmax) fd
      let table := fun i =>
        if i < oldmax then L.fdTable i
        else if i < oldmax + (max - oldmax) / 2 then .null
        else L.fill i
      .ok { L with fdTableMax := max, fdTable := Function.update table fd (.fde k) }
  else .ok { L with fdTable := Function.update L.fdTable fd (.fde k) }

/-- `fdevent_unregister`. -/
def fdeventUnregister (k : κ) (L : Loop κ) : Except Stop (Loop κ) :=
  let fde := L.mem k
  if L.fdTableMax ≤ fde.fd then .error (.fatalFd fde.fd)
  else if L.fdTable fde.fd ≠ .fde k then .error (.fatalFd fde.fd)
  else
    let L := { L with fdTable := Function.update L.fdTable fde.fd .null }
    .ok (if has fde.state fdeDontClose then L else L.adbClose fde.fd)

/-! ## The pending list -/

def fdeventPlistEnqueue (k : κ) (L : Loop κ) : Loop κ :=
  { L with listPending := L.listPending ++ [k] }

def fdeventPlistRemove (k : κ) (L : Loop κ) : Loop κ :=
  { L with listPending := L.listPending.erase k }

def fdeventPlistDequeue (L : Loop κ) : Option (κ × Loop κ) :=
  match L.listPending with
  | [] => none
  | k :: rest => some (k, { L with listPending := rest })

/-! ## The public operations -/

/-- `fdevent_install`. -/
def fdeventInstall (k : κ) (fd : ℕ) (L : Loop κ) : Except Stop (Loop κ) :=
  (L.setMem k { fd := fd, state := fdeActive }).fdeventRegister k

/-- `fdevent_create`: `fdevent_install` on a new struct. -/
def fdeventCreate (k : κ) (fd : ℕ) (L : Loop κ) : Except Stop (Loop κ) := do
  let L ← L.fdeventInstall k fd
  pure (L.setMem k { L.mem k with state := (L.mem k).state ||| fdeCreated })

/-- `fdevent_remove`. -/
def fdeventRemove (k : κ) (L : Loop κ) : Except Stop (Loop κ) := do
  let L := if has (L.mem k).state fdePending then L.fdeventPlistRemove k else L
  let L ← (if has (L.mem k).state fdeActive then (L.fdeventDisconnect k).fdeventUnregister k
    else .ok L)
  pure (L.setMem k { L.mem k with state := 0#16, events := 0#16 })

/-- The end of `fdevent_set`: pending events are masked with the complement of the new
subscription, and an `fdevent` left with none is taken off the pending list. -/
def dropPending (k : κ) (events : BitVec 16) (L : Loop κ) : Loop κ :=
  let fde := L.mem k
  if has fde.state fdePending then
    let left := fde.events &&& ~~~events
    let L := L.setMem k { fde with events := left }
    if left = 0#16 then
      (L.fdeventPlistRemove k).setMem k
        { L.mem k with state := (L.mem k).state &&& ~~~fdePending }
    else L
  else L

/-- `fdevent_set`. -/
def fdeventSet (k : κ) (events : BitVec 16) (L : Loop κ) : Except Stop (Loop κ) := do
  let events := events &&& fdeEventMask
  if (L.mem k).state &&& fdeEventMask = events then pure L
  else
    let L ← (if has (L.mem k).state fdeActive then L.fdeventUpdate k events else .ok L)
    let L := L.setMem k { L.mem k with
      state := ((L.mem k).state &&& fdeStateMask) ||| events }
    pure (L.dropPending k events)

/-- `fdevent_add`. -/
def fdeventAdd (k : κ) (events : BitVec 16) (L : Loop κ) : Except Stop (Loop κ) :=
  L.fdeventSet k (((L.mem k).state &&& fdeEventMask) ||| (events &&& fdeEventMask))

/-- `fdevent_del`. -/
def fdeventDel (k : κ) (events : BitVec 16) (L : Loop κ) : Except Stop (Loop κ) :=
  L.fdeventSet k (((L.mem k).state &&& fdeEventMask) &&& ~~~(events &&& fdeEventMask))

/-! ## Parts of `fdevent_process` and `fdevent_call_fdfunc` -/

/-- The `FDE_*` events for what `epoll_wait` reported. -/
def fdeEvents (ev : EpollMask) : BitVec 16 :=
  (if ev.pollIn then fdeRead else 0#16) ||| (if ev.pollOut then fdeWrite else 0#16) |||
    (if ev.pollErr then fdeError else 0#16)

/-- One iteration of `fdevent_process`. -/
def fdeventReport (k : κ) (ev : EpollMask) (L : Loop κ) : Loop κ :=
  let fde := { L.mem k with events := (L.mem k).events ||| fdeEvents ev }
  let L := L.setMem k fde
  if fde.events = 0#16 then L
  else if has fde.state fdePending then L
  else (L.setMem k { fde with state := fde.state ||| fdePending }).fdeventPlistEnqueue k

/-- `fdevent_call_fdfunc` up to the call: the events to deliver, if there is a call. -/
def fdeventCallFdfunc (k : κ) (L : Loop κ) : Option (BitVec 16) × Loop κ :=
  let fde := L.mem k
  if has fde.state fdePending then
    (some fde.events,
      L.setMem k { fde with events := 0#16, state := fde.state &&& ~~~fdePending })
  else (none, L.setMem k { fde with events := 0#16 })

end Loop

end Adbd
