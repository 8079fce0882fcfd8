import Adbd.Model.Sockets

/-!
# Choosing a transport (`acquire_one_transport`)

The whole of `acquire_one_transport`: the requested state, type and serial, the loop with its
four ways to match and to find a second match, the tests behind the loop, and the retry.
`Adbd.Model.Sockets` has the one call that the daemon's own code paths make,
`acquire_one_transport(CS_ANY, kTransportAny, NULL, ...)`.
-/

namespace Adbd

namespace Acquire

/-! ## `qual_match` -/

/-- `qual_char_is_invalid`. -/
def qualCharIsInvalid (ch : UInt8) : Bool :=
  if 0x41 ≤ ch ∧ ch ≤ 0x5a then false
  else if 0x61 ≤ ch ∧ ch ≤ 0x7a then false
  else if 0x30 ≤ ch ∧ ch ≤ 0x39 then false
  else true

/-- `while(*prefix)if(*prefix++!=*to_test++)return 0;`: what is left of `to_test`. -/
def skipPrefix : List UInt8 → List UInt8 → Option (List UInt8)
  | [], toTest => some toTest
  | _ :: _, [] => none
  | p :: ps, c :: cs => if p ≠ c then none else skipPrefix ps cs

/-- The loop over `qual`, and the test for the end of `to_test` behind it. -/
def walkQual (sanitizeQual : Bool) : List UInt8 → List UInt8 → Bool
  | [], toTest => toTest = []
  | _ :: _, [] => false
  | q :: qs, c :: cs =>
    let ch := if sanitizeQual && qualCharIsInvalid q then 0x5f else q
    if ch ≠ c then false else walkQual sanitizeQual qs cs

/-- `qual_match` of a serial that is not null. -/
def qualMatch (toTest pre : List UInt8) (qual : Option (List UInt8)) (sanitizeQual : Bool) :
    Bool :=
  if toTest = [] then
    match qual with
    | none => true
    | some q => q = []
  else
    match qual with
    | none => false
    | some q =>
      match skipPrefix pre toTest with
      | none => false
      | some rest => walkQual sanitizeQual q rest

/-! ## The loop -/

/-- `transport_type`, as a request. -/
inductive Requested
  | usb
  | loc
  | any
  | host
  deriving DecidableEq, Repr

/-- The condition on `serial`. -/
def serialMatches (serial : List UInt8) (t : Atransport) : Bool :=
  t.serial = some serial || t.devpath = some serial ||
    qualMatch serial (str "product:") t.product false ||
    qualMatch serial (str "model:") t.model true ||
    qualMatch serial (str "device:") t.device false

/-- The loop over `transport_list`: `result`, `ambiguous` and `*error_out` behind it.  The type
of a transport is the one its constructor assigned, USB or local. -/
def scan (ttype : Requested) (serial : Option (List UInt8)) (heap : TAddr → Atransport) :
    List TAddr → Option TAddr → String → Option TAddr × Bool × String
  | [], result, err => (result, false, err)
  | t :: ts, result, err =>
    if (heap t).connectionState = .noperm then
      scan ttype serial heap ts result "insufficient permissions for device"
    else
      match serial with
      | some s =>
        if serialMatches s (heap t) then
          match result with
          | some _ => (none, true, "more than one device")
          | none => scan ttype serial heap ts (some t) err
        else scan ttype serial heap ts result err
      | none =>
        if ttype = .usb ∧ (heap t).type = .usb then
          match result with
          | some _ => (none, true, "more than one device")
          | none => scan ttype serial heap ts (some t) err
        else if ttype = .loc ∧ (heap t).type = .loc then
          match result with
          | some _ => (none, true, "more than one emulator")
          | none => scan ttype serial heap ts (some t) err
        else if ttype = .any then
          match result with
          | some _ => (none, true, "more than one device and emulator")
          | none => scan ttype serial heap ts (some t) err
        else scan ttype serial heap ts result err

/-- `acquire_one_transport`: the transport returned and `*error_out`, or `none` where the
function sleeps and tries again.  A `state` of `none` is `CS_ANY`. -/
def acquireOneTransport (state : Option ConnectionState) (ttype : Requested)
    (serial : Option (List UInt8)) (heap : TAddr → Atransport) (transportList : List TAddr) :
    Option (Option TAddr × Option String) :=
  let (result, ambiguous, err) := scan ttype serial heap transportList none "device not found"
  let refuse := fun err : String =>
    if state ≠ none ∧ (serial.isSome = true ∨ ambiguous = false) then none
    else some (none, some err)
  match result with
  | none => refuse err
  | some t =>
    if (heap t).connectionState = .offline then refuse "device offline"
    else if state ≠ none ∧ state ≠ some (heap t).connectionState then
      refuse "invalid device state"
    else some (some t, none)

end Acquire

end Adbd
