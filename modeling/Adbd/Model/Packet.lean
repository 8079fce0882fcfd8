import Mathlib.Data.List.Basic
import Mathlib.Tactic.Lemma

/-!
# Packets (`adb.h`, `transport.c`)

`struct amessage` is six 32-bit words; `struct apacket` adds the cursor fields the sockets use
and a data buffer of `MAX_PAYLOAD` bytes of which only the first `data_length` are the payload.
Packets are passed by value in this model, so `addr` records which heap object a packet is;
`get_apacket` hands out a new one each time.
-/

namespace Adbd

def maxPayload : ℕ := 4096

def aSync : UInt32 := 0x434e5953
def aCnxn : UInt32 := 0x4e584e43
def aOpen : UInt32 := 0x4e45504f
def aOkay : UInt32 := 0x59414b4f
def aClse : UInt32 := 0x45534c43
def aWrte : UInt32 := 0x45545257
def aAuth : UInt32 := 0x48545541
def aVersion : UInt32 := 0x01000000

def adbAuthToken : UInt32 := 1
def adbAuthSignature : UInt32 := 2
def adbAuthRsapublickey : UInt32 := 3

def tokenSize : ℕ := 20

/-- `struct amessage`. -/
structure Amessage where
  command : UInt32 := 0
  arg0 : UInt32 := 0
  arg1 : UInt32 := 0
  dataLength : UInt32 := 0
  dataCheck : UInt32 := 0
  magic : UInt32 := 0
  deriving DecidableEq, Repr

/-- `struct apacket`; `ptr` is an offset into `data`. -/
structure Apacket where
  addr : ℕ
  len : ℕ := 0
  ptr : ℕ := 0
  msg : Amessage := {}
  data : List UInt8 := []
  deriving DecidableEq, Repr

/-- The first `data_length` bytes of the buffer. -/
def Apacket.payload (p : Apacket) : List UInt8 := p.data.take p.msg.dataLength.toNat

/-- The bytes a socket still has to write, `p->ptr` to `p->ptr + p->len`. -/
def Apacket.remaining (p : Apacket) : List UInt8 := (p.data.drop p.ptr).take p.len

/-- The checksum loop of `send_packet` and `check_data`. -/
def dataSum (bs : List UInt8) : UInt32 := bs.foldl (fun sum b => sum + b.toUInt32) 0

/-- What `send_packet` stores in the header before it hands the packet on. -/
def stamp (p : Apacket) : Apacket :=
  { p with msg := { p.msg with
      magic := p.msg.command ^^^ 0xffffffff
      dataCheck := dataSum p.payload } }

/-- `check_header` returns 0. -/
def checkHeader (m : Amessage) : Bool :=
  m.magic = m.command ^^^ 0xffffffff && m.dataLength.toNat ≤ maxPayload

/-- `check_data` returns 0. -/
def checkData (p : Apacket) : Bool := dataSum p.payload = p.msg.dataCheck

@[simp] lemma stamp_payload (p : Apacket) : (stamp p).payload = p.payload := rfl

/-- A packet whose length is within bounds passes both checks once it is stamped. -/
lemma check_stamp {p : Apacket} (h : p.msg.dataLength.toNat ≤ maxPayload) :
    checkHeader (stamp p).msg = true ∧ checkData (stamp p) = true := by
  constructor
  · simp [checkHeader, stamp, h]
  · simp [checkData, Apacket.payload, stamp]

/-- A packet that passes both checks is already stamped. -/
lemma stamp_of_check {p : Apacket} (hh : checkHeader p.msg = true) (hd : checkData p = true) :
    stamp p = p := by
  simp only [checkHeader, Bool.and_eq_true, decide_eq_true_eq] at hh
  simp only [checkData, decide_eq_true_eq] at hd
  rw [stamp, ← hh.1, hd]

end Adbd
