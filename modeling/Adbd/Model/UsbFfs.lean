import Adbd.Framework.Transition
import Adbd.Model.Base
import Adbd.Model.Packet

/-!
# The FunctionFS handle and its users (`usb_linux_client.c`, `transport_usb.c`, `transport.c`)

All USB transports share one `usb_handle`.  `usb_ffs_open_thread` opens the endpoints and
registers a transport; `usb_ffs_kick` closes them and wakes it up again.  The two threads of a
transport read `h->bulk_out` and `h->bulk_in` afresh for every call of `usb_read` and
`usb_write`, and keep the number for the length of the call.

The machine takes one step of one thread at a time; what the main loop sends, what the kernel
returns and the order of the threads are up to the environment.  `kickedAt`, `opens` and
`accesses` do not exist in the program: they number the endpoint openings and record which
opening each transport's reads and writes went to.
-/

namespace Adbd

/-! ## State -/

/-- `struct usb_handle`, as far as FunctionFS uses it; `none` is -1. -/
structure UsbHandle where
  control : Option ℕ := none
  bulkOut : Option ℕ := none
  /-- `usb_ffs_init` sets `bulk_out` twice and leaves this at the 0 of `calloc`. -/
  bulkIn : Option ℕ := some 0
  deriving DecidableEq, Repr

/-- Position of `usb_ffs_open_thread`, the steps of `init_functionfs` included. -/
inductive OpenerPc
  | waiting
  | control
  | describe
  | bulkOut
  | bulkIn
  | register
  deriving DecidableEq, Repr

/-- Position of `output_thread` of a USB transport; the numbers are the ones `bulk_read` was
called with. -/
inductive UsbOutputPc
  | start
  | header
  | headerCall (n : Option ℕ)
  | payload (m : Amessage)
  | payloadCall (m : Amessage) (n : Option ℕ)
  | kickTest
  | kickLock
  | kickCall
  | gone
  deriving DecidableEq, Repr

/-- Position of `input_thread` of a USB transport. -/
inductive UsbInputPc
  | reading
  | header (p : Apacket)
  | headerCall (p : Apacket) (n : Option ℕ)
  | payload (p : Apacket)
  | payloadCall (p : Apacket) (n : Option ℕ)
  | kickTest
  | kickLock
  | kickCall
  | gone
  deriving DecidableEq, Repr

/-- A registered USB transport. -/
structure UsbTransport where
  kicked : Bool := false
  syncToken : UInt32 := 1
  active : Bool := false
  /-- Packets the main loop has sent and `input_thread` has not read. -/
  toInput : List Apacket := []
  output : UsbOutputPc := .start
  input : UsbInputPc := .reading
  /-- How many endpoints had been opened when the transport was kicked. -/
  kickedAt : Option ℕ := none
  deriving DecidableEq, Repr

/-- `output_thread` is still in its packet loop. -/
def UsbOutputPc.inLoop : UsbOutputPc → Bool
  | .start | .header | .headerCall _ | .payload _ | .payloadCall _ _ => true
  | _ => false

/-- `input_thread` is still in its packet loop. -/
def UsbInputPc.inLoop : UsbInputPc → Bool
  | .reading | .header _ | .headerCall _ _ | .payload _ | .payloadCall _ _ => true
  | _ => false

structure Usb where
  handle : UsbHandle := {}
  opener : OpenerPc := .waiting
  /-- The descriptors that are open endpoints, with the number of their opening. -/
  files : ℕ → Option ℕ := fun _ => none
  opens : ℕ := 0
  transports : ℕ → Option UsbTransport := fun _ => none
  nextTransport : ℕ := 0
  /-- Reads and writes: the transport, and the opening the descriptor came from. -/
  accesses : List (ℕ × ℕ) := []

namespace Usb

/-! ## The handle -/

/-- `adb_close`; closing -1 does nothing. -/
def closeFile (n : Option ℕ) (u : Usb) : Usb :=
  match n with
  | none => u
  | some n => { u with files := Function.update u.files n none }

/-- `adb_open` of an endpoint returned `n`. -/
def openFile (n : ℕ) (u : Usb) : Except Stop Usb :=
  if (u.files n).isSome then .error .disabled
  else .ok { u with files := Function.update u.files n (some u.opens), opens := u.opens + 1 }

/-- `usb_ffs_kick`. -/
def usbFfsKick (u : Usb) : Usb :=
  { ((u.closeFile u.handle.control).closeFile u.handle.bulkOut).closeFile u.handle.bulkIn with
    handle := { control := none, bulkOut := none, bulkIn := none } }

/-- A descriptor that `if(h->x>0){adb_close(h->x);h->x=-1;}` closes. -/
def positive (n : Option ℕ) : Option ℕ := n.filter (0 < ·)

/-- What that statement leaves in the field. -/
def unlessPositive (n : Option ℕ) : Option ℕ := n.filter (· = 0)

/-- `err:` of `init_functionfs`, and the test after it. -/
def initFailed (u : Usb) : Usb :=
  let h := u.handle
  let u := ((u.closeFile (positive h.bulkIn)).closeFile (positive h.bulkOut)).closeFile
    (positive h.control)
  let h : UsbHandle := ⟨unlessPositive h.control, unlessPositive h.bulkOut, unlessPositive h.bulkIn⟩
  { u with handle := h, opener := if h.control.isSome then .register else .control }

/-- One step of `usb_ffs_open_thread`; `fd` is what `adb_open` returns, and `ok` whether the
descriptors and strings could be written. -/
def openThread (fd : Option ℕ) (ok : Bool) (u : Usb) : Except Stop Usb :=
  match u.opener with
  | .waiting =>
    if u.handle.control = none then .ok { u with opener := .control } else .error .disabled
  | .control =>
    match fd with
    | none => .ok (initFailed { u with handle := { u.handle with control := none } })
    | some n => do
      let u ← u.openFile n
      pure { u with handle := { u.handle with control := some n }, opener := .describe }
  | .describe => .ok (if ok then { u with opener := .bulkOut } else u.initFailed)
  | .bulkOut =>
    match fd with
    | none => .ok (initFailed { u with handle := { u.handle with bulkOut := none } })
    | some n => do
      let u ← u.openFile n
      pure { u with handle := { u.handle with bulkOut := some n }, opener := .bulkIn }
  | .bulkIn =>
    match fd with
    | none => .ok (initFailed { u with handle := { u.handle with bulkIn := none } })
    | some n => do
      let u ← u.openFile n
      pure { u with handle := { u.handle with bulkIn := some n }, opener := .register }
  | .register =>
    .ok { u with
      opener := .waiting
      transports := Function.update u.transports u.nextTransport (some {})
      nextTransport := u.nextTransport + 1 }

/-! ## Transfers -/

/-- How one `adb_read` or `adb_write` of a transfer ends: there is more to do, all is done, or
it failed. -/
inductive Transfer
  | more
  | done
  | failed
  deriving DecidableEq, Repr

/-- One `adb_read` or `adb_write` of transport `t` on the number `n`; a number that is no
endpoint any more is closed, or another file's by now. -/
def access (t : ℕ) (n : Option ℕ) (u : Usb) : Usb :=
  match n.bind u.files with
  | some g => { u with accesses := (t, g) :: u.accesses }
  | none => u

def setTransport (t : ℕ) (x : UsbTransport) (u : Usb) : Usb :=
  { u with transports := Function.update u.transports t (some x) }

def derefT (t : ℕ) (u : Usb) : Except Stop UsbTransport :=
  match u.transports t with
  | some x => .ok x
  | none => .error .disabled

/-! ## The threads -/

/-- What `kick_transport` does under the lock: whether this thread has to kick. -/
def kickLocked (u : Usb) (x : UsbTransport) : UsbTransport :=
  { x with kicked := true, kickedAt := if x.kicked then x.kickedAt else some u.opens }

/-- One step of `output_thread`.  `r` is how a transfer ends; `m` and `data` are what it has
read when it is done.  For this kind of transport the pair is closed only after both threads
are gone, so the writes to the main loop succeed. -/
def outputThread (t : ℕ) (r : Transfer) (m : Amessage) (data : List UInt8) (u : Usb) :
    Except Stop Usb := do
  let x ← u.derefT t
  match x.output with
  | .start => .ok (u.setTransport t { x with syncToken := x.syncToken + 1, output := .header })
  | .header => .ok (u.setTransport t { x with output := .headerCall u.handle.bulkOut })
  | .headerCall n =>
    let u := u.access t n
    match r with
    | .more => .ok u
    | .failed => .ok (u.setTransport t { x with output := .kickTest })
    | .done =>
      if !checkHeader m then .ok (u.setTransport t { x with output := .kickTest })
      else if m.dataLength ≠ 0 then .ok (u.setTransport t { x with output := .payload m })
      else
        .ok (u.setTransport t { x with
          output := if checkData { addr := 0, msg := m } then .header else .kickTest })
  | .payload m => .ok (u.setTransport t { x with output := .payloadCall m u.handle.bulkOut })
  | .payloadCall m n =>
    let u := u.access t n
    match r with
    | .more => .ok u
    | .failed => .ok (u.setTransport t { x with output := .kickTest })
    | .done =>
      .ok (u.setTransport t { x with
        output := if checkData { addr := 0, msg := m, data := data } then .header else .kickTest })
  | .kickTest =>
    .ok (u.setTransport t { x with output := if x.kicked then .gone else .kickLock })
  | .kickLock =>
    .ok (u.setTransport t
      { u.kickLocked x with output := if x.kicked then .gone else .kickCall })
  | .kickCall => .ok (u.usbFfsKick.setTransport t { x with output := .gone })
  | .gone => .error .disabled

/-- One step of `input_thread`. -/
def inputThread (t : ℕ) (r : Transfer) (u : Usb) : Except Stop Usb := do
  let x ← u.derefT t
  match x.input with
  | .reading =>
    match x.toInput with
    | [] => .error .disabled
    | p :: rest =>
      let x := { x with toInput := rest }
      if p.msg.command = aSync then
        if p.msg.arg0 = 0 then .ok (u.setTransport t { x with input := .kickTest })
        else
          .ok (u.setTransport t { x with active := x.active || p.msg.arg1 = x.syncToken })
      else if x.active then .ok (u.setTransport t { x with input := .header p })
      else .ok (u.setTransport t x)
  | .header p => .ok (u.setTransport t { x with input := .headerCall p u.handle.bulkIn })
  | .headerCall p n =>
    let u := u.access t n
    match r with
    | .more => .ok u
    | .failed => .ok (u.setTransport t { x with input := .reading })
    | .done =>
      .ok (u.setTransport t { x with
        input := if p.msg.dataLength = 0 then .reading else .payload p })
  | .payload p => .ok (u.setTransport t { x with input := .payloadCall p u.handle.bulkIn })
  | .payloadCall _ n =>
    let u := u.access t n
    match r with
    | .more => .ok u
    | _ => .ok (u.setTransport t { x with input := .reading })
  | .kickTest =>
    .ok (u.setTransport t { x with input := if x.kicked then .gone else .kickLock })
  | .kickLock =>
    .ok (u.setTransport t
      { u.kickLocked x with input := if x.kicked then .gone else .kickCall })
  | .kickCall => .ok (u.usbFfsKick.setTransport t { x with input := .gone })
  | .gone => .error .disabled

/-- The main loop passes a packet to `send_packet`. -/
def mainSends (t : ℕ) (p : Apacket) (u : Usb) : Except Stop Usb := do
  let x ← u.derefT t
  pure (u.setTransport t { x with toInput := x.toInput ++ [stamp p] })

end Usb

/-! ## Steps -/

inductive UsbEvent
  | opener (fd : Option ℕ) (ok : Bool)
  | output (t : ℕ) (r : Usb.Transfer) (m : Amessage) (data : List UInt8)
  | input (t : ℕ) (r : Usb.Transfer)
  | main (t : ℕ) (p : Apacket)
  deriving DecidableEq, Repr

def usbStep : UsbEvent → Usb → Except Stop Usb
  | .opener fd ok, u => u.openThread fd ok
  | .output t r m data, u => u.outputThread t r m data
  | .input t r, u => u.inputThread t r
  | .main t p, u => u.mainSends t p

end Adbd
