import Adbd.Framework.History
import Adbd.Framework.Ring
import Adbd.Model.Fdevent

/-!
# The loop around the callbacks (`fdevent_loop`)

`Adbd.Model.Fdevent` keeps `list_pending` as a list.  Here the intrusive links of the source are
laid over it: what the loop does next is decided by the links alone, and the list is carried
along as their specification.  Following a null pointer is a fault.

The callbacks themselves are arbitrary.  A run is a list of turns: the operations of
`fdevent.h`, on any `fdevent` and in any order; `epoll_wait` returning a batch, once the pending
list is empty; the next pending callback being called; and the body of
`fdevent_subproc_event_func`, which looks an `fdevent` up by number and calls back at once.
What happened is recorded, newest first.
-/

namespace Adbd

open FlagWord

/-- Why the loop stopped. -/
inductive Fault
  | stop (s : Stop)
  /-- A `next` or `prev` pointer was followed while null. -/
  | nullLink
  /-- `fd_table[fd]` was dereferenced while null. -/
  | nullFde (fd : ℕ)
  deriving DecidableEq, Repr

/-- What the loop and the callbacks did. -/
inductive Happening (κ : Type)
  | installed (k : κ)
  | removed (k : κ)
  /-- `epoll_wait` returned: a new batch begins. -/
  | waited
  | reported (k : κ) (ev : EpollMask)
  /-- A callback with its events, the subscription it had then, and whether
  `fdevent_subproc_event_func` made the call. -/
  | called (k : κ) (events subscribed : BitVec 16) (direct : Bool)
  /-- `fdevent_subproc_event_func` added `FDE_READ` to a pending `fdevent`. -/
  | forced (k : κ)
  deriving DecidableEq, Repr

structure EventLoop (κ : Type) where
  loop : Loop κ
  /-- The `next` and `prev` pointers of `list_pending` and of every `fdevent`. -/
  links : Ring.Links κ
  history : List (Happening κ)

/-- The operations a callback can perform. -/
inductive Operation (κ : Type)
  | openFd (n : ℕ)
  | closeFd (n : ℕ)
  | install (k : κ) (n : ℕ)
  | create (k : κ) (n : ℕ)
  /-- `fde->state |= FDE_DONT_CLOSE`. -/
  | dontClose (k : κ)
  | set (k : κ) (events : BitVec 16)
  | add (k : κ) (events : BitVec 16)
  | del (k : κ) (events : BitVec 16)
  | remove (k : κ)
  deriving DecidableEq, Repr

inductive Turn (κ : Type)
  | operate (op : Operation κ)
  /-- `epoll_wait` returns; the pending list is empty then. -/
  | wait (batch : List (ℕ × EpollMask))
  /-- The next pending callback is called. -/
  | call
  /-- `fdevent_subproc_event_func(fd, ev)`: the number read from the socket, if the read
  succeeds, and what `FIONREAD` says about it. -/
  | subproc (fd : ℕ) (ev : BitVec 16) (answer : Option ℕ) (rcount : ℕ)
  deriving DecidableEq, Repr

namespace EventLoop

variable {κ : Type} [DecidableEq κ]

/-! ## Calls that can stop -/

/-- A call into `fdevent.c` that may stop the program. -/
def stopping {α : Type} : Except Stop α → Except Fault α
  | .ok a => .ok a
  | .error s => .error (.stop s)

/-- List surgery that may follow a null pointer. -/
def following {α : Type} : Option α → Except Fault α
  | some a => .ok a
  | none => .error .nullLink

def record (x : Happening κ) (E : EventLoop κ) : EventLoop κ :=
  { E with history := x :: E.history }

/-! ## The operations -/

/-- The state word of `k` says that it is on the pending list. -/
def Pending (k : κ) (E : EventLoop κ) : Prop := has (E.loop.mem k).state fdePending = true

instance (k : κ) (E : EventLoop κ) : Decidable (E.Pending k) :=
  inferInstanceAs (Decidable (_ = _))

/-- `memset(fde,0,sizeof(fdevent))` takes the links too. -/
def zeroLinks (k : κ) (R : Ring.Links κ) : Ring.Links κ :=
  (R.setNext (some k) none).setPrev (some k) none

/-- `fdevent_install`, on an `fdevent` that is not installed. -/
def install (k : κ) (n : ℕ) (E : EventLoop κ) : Except Fault (EventLoop κ) :=
  if has (E.loop.mem k).state fdeActive then .error (.stop .disabled)
  else do
    let loop ← stopping (E.loop.fdeventInstall k n)
    pure (record (.installed k) { E with loop := loop, links := zeroLinks k E.links })

/-- `fdevent_create`; `malloc` returns a struct that is not in use. -/
def create (k : κ) (n : ℕ) (E : EventLoop κ) : Except Fault (EventLoop κ) :=
  if has (E.loop.mem k).state fdeActive then .error (.stop .disabled)
  else do
    let loop ← stopping (E.loop.fdeventCreate k n)
    pure (record (.installed k) { E with loop := loop, links := zeroLinks k E.links })

/-- `fdevent_remove`. -/
def remove (k : κ) (E : EventLoop κ) : Except Fault (EventLoop κ) := do
  let links ← (if E.Pending k then following (E.links.unlink k) else pure E.links)
  let loop ← stopping (E.loop.fdeventRemove k)
  pure (record (.removed k) { E with loop := loop, links := links })

/-- `fdevent_set(fde,events)` finds nothing left pending. -/
def Empties (k : κ) (events : BitVec 16) (E : EventLoop κ) : Prop :=
  (E.loop.mem k).state &&& fdeEventMask ≠ events &&& fdeEventMask ∧ E.Pending k ∧
    (E.loop.mem k).events &&& ~~~(events &&& fdeEventMask) = 0#16

instance (k : κ) (events : BitVec 16) (E : EventLoop κ) : Decidable (E.Empties k events) :=
  inferInstanceAs (Decidable (_ ∧ _ ∧ _))

/-- `fdevent_set`. -/
def set (k : κ) (events : BitVec 16) (E : EventLoop κ) : Except Fault (EventLoop κ) := do
  let loop ← stopping (E.loop.fdeventSet k events)
  let links ← (if E.Empties k events then following (E.links.unlink k) else pure E.links)
  pure { E with loop := loop, links := links }

/-- `fdevent_add`. -/
def add (k : κ) (events : BitVec 16) (E : EventLoop κ) : Except Fault (EventLoop κ) :=
  E.set k (((E.loop.mem k).state &&& fdeEventMask) ||| (events &&& fdeEventMask))

/-- `fdevent_del`. -/
def del (k : κ) (events : BitVec 16) (E : EventLoop κ) : Except Fault (EventLoop κ) :=
  E.set k (((E.loop.mem k).state &&& fdeEventMask) &&& ~~~(events &&& fdeEventMask))

/-- The subscription an operation asks for. -/
def asks : Operation κ → EventLoop κ → Option (κ × BitVec 16)
  | .set k events, _ => some (k, events)
  | .add k events, E =>
    some (k, ((E.loop.mem k).state &&& fdeEventMask) ||| (events &&& fdeEventMask))
  | .del k events, E =>
    some (k, ((E.loop.mem k).state &&& fdeEventMask) &&& ~~~(events &&& fdeEventMask))
  | _, _ => none

def operate : Operation κ → EventLoop κ → Except Fault (EventLoop κ)
  | .openFd n, E => do
    let loop ← stopping (E.loop.openFd n)
    pure { E with loop := loop }
  | .closeFd n, E => pure { E with loop := E.loop.adbClose n }
  | .install k n, E => E.install k n
  | .create k n, E => E.create k n
  | .dontClose k, E =>
    let fde := { E.loop.mem k with state := (E.loop.mem k).state ||| fdeDontClose }
    pure { E with loop := E.loop.setMem k fde }
  | .set k events, E => E.set k events
  | .add k events, E => E.add k events
  | .del k events, E => E.del k events
  | .remove k, E => E.remove k

/-! ## `fdevent_process` -/

/-- What the kernel can report for a descriptor registered with `asked`: errors and hang-ups
come unasked. -/
def canReport (ev asked : EpollMask) : Bool :=
  (!ev.pollIn || asked.pollIn) && (!ev.pollOut || asked.pollOut)

/-- One iteration of `fdevent_process`. -/
def reportOne (k : κ) (ev : EpollMask) (E : EventLoop κ) : Except Fault (EventLoop κ) := do
  let links ← (if (E.loop.mem k).events ||| Loop.fdeEvents ev ≠ 0#16 ∧ ¬E.Pending k then
      following (E.links.append k)
    else pure E.links)
  pure (record (.reported k ev) { E with loop := E.loop.fdeventReport k ev, links := links })

/-- `fdevent_process` on what `epoll_wait` returned, by descriptor; `data.ptr` is what the
interest list holds. -/
def report : List (ℕ × EpollMask) → EventLoop κ → Except Fault (EventLoop κ)
  | [], E => pure E
  | (n, ev) :: batch, E =>
    match E.loop.interest n with
    | none => .error (.stop .disabled)
    | some (asked, k) =>
      if canReport ev asked then do
        let E ← E.reportOne k ev
        report batch E
      else .error (.stop .disabled)

/-- `fdevent_plist_dequeue`. -/
def dequeue (E : EventLoop κ) : Except Fault (Option κ × EventLoop κ) := do
  let (node, links) ← following E.links.takeFirst
  match node with
  | none => pure (none, E)
  | some k => pure (some k,
      { E with loop := { E.loop with listPending := E.loop.listPending.erase k }, links := links })

/-- `fdevent_process`; the loop before it has emptied the pending list. -/
def wait (batch : List (ℕ × EpollMask)) (E : EventLoop κ) : Except Fault (EventLoop κ) := do
  match ← E.dequeue with
  | (none, E) => report batch (record .waited E)
  | (some _, _) => .error (.stop .disabled)

/-! ## The callbacks -/

/-- `fdevent_call_fdfunc` up to the call. -/
def callFdfunc (k : κ) (direct : Bool) (E : EventLoop κ) : EventLoop κ :=
  match E.loop.fdeventCallFdfunc k with
  | (none, loop) => { E with loop := loop }
  | (some events, loop) =>
    record (.called k events ((E.loop.mem k).state &&& fdeEventMask) direct)
      { E with loop := loop }

/-- One iteration of the inner loop of `fdevent_loop`. -/
def call (E : EventLoop κ) : Except Fault (EventLoop κ) := do
  match ← E.dequeue with
  | (none, _) => .error (.stop .disabled)
  | (some k, E) => pure (E.callFdfunc k false)

/-- The end of `fdevent_subproc_event_func`: the `fdevent` found for the child's descriptor gets
its end of file, at once if there is nothing left to read. -/
def forceEof (k : κ) (rcount : ℕ) (E : EventLoop κ) : EventLoop κ :=
  let E := { E with loop := E.loop.setMem k { E.loop.mem k with forceEof := true } }
  if rcount ≠ 0 then E
  else
    let fde := { E.loop.mem k with events := (E.loop.mem k).events ||| fdeRead }
    if has fde.state fdePending then record (.forced k) { E with loop := E.loop.setMem k fde }
    else
      let fde := { fde with state := fde.state ||| fdePending }
      callFdfunc k true { E with loop := E.loop.setMem k fde }

/-- What `fdevent_subproc_event_func` does with the number it has read. -/
def childExited (n rcount : ℕ) (E : EventLoop κ) : Except Fault (EventLoop κ) :=
  if E.loop.fdTableMax ≤ n then pure E
  else
    match E.loop.fdTable n with
    | .null => pure E
    | .wild => .error (.stop (.wildFde n))
    | .fde k => if (E.loop.mem k).fd ≠ n then pure E else pure (E.forceEof k rcount)

/-- `fdevent_subproc_event_func`. -/
def subproc (fd : ℕ) (ev : BitVec 16) (answer : Option ℕ) (rcount : ℕ) (E : EventLoop κ) :
    Except Fault (EventLoop κ) :=
  if E.loop.fdTableMax ≤ fd then .error (.stop (.fatalFd fd))
  else
    match E.loop.fdTable fd with
    | .null => .error (.nullFde fd)
    | .wild => .error (.stop (.wildFde fd))
    | .fde k => do
      let E ← E.add k fdeRead
      if has ev fdeRead then
        match answer with
        | none => .error (.stop .fatalErrno)
        | some n => E.childExited n rcount
      else pure E

/-! ## Runs -/

def step : Turn κ → EventLoop κ → Except Fault (EventLoop κ)
  | .operate op, E => E.operate op
  | .wait batch, E => E.wait batch
  | .call, E => E.call
  | .subproc fd ev answer rcount, E => E.subproc fd ev answer rcount

/-- Before any `fdevent` is installed.  `garbage` says which slots of the table hold something
when they come from `realloc`. -/
def initial (garbage : ℕ → Bool) (inUse : ℕ → Bool) : EventLoop κ where
  loop := {
    mem := fun _ => {}
    listPending := []
    fdTable := fun _ => .null
    fdTableMax := 0
    fill := fun n => if garbage n then .wild else .null
    inUse := inUse
    interest := fun _ => none }
  links := Ring.Links.empty
  history := []

end EventLoop

end Adbd
