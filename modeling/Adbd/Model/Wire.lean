import Adbd.Framework.Bytes
import Adbd.Framework.Syscall
import Adbd.Model.Packet

/-!
# Packets on the wire (`transport_local.c`, `transport_usb.c`, `usb_linux_client.c`)

A packet travels as the object representation of its `amessage` followed by its payload, which
the struct keeps contiguous.  The TCP transport writes both with one `writex`; the USB transport
writes the header and, unless the payload is empty, the payload, through the write function of
whichever USB gadget interface is in use.
-/

namespace Adbd

open Bytes Syscall

/-! ## `readx` and `writex` -/

/-- `readx`: the bytes read, or failure, and the results left over. -/
def readx (len : ℕ) (s : List ReadResult) : Option (List UInt8) × List ReadResult :=
  readFull len s

/-- `writex`: the bytes written, whether it returned 0, and the results left over. -/
def writex (bs : List UInt8) (s : List WriteResult) :
    List UInt8 × Bool × List WriteResult :=
  writeFull bs s

/-! ## `struct amessage` in memory -/

/-- The six words of a message, in declaration order. -/
def Amessage.words (m : Amessage) : List UInt32 :=
  [m.command, m.arg0, m.arg1, m.dataLength, m.dataCheck, m.magic]

/-- The 24 bytes of a message. -/
def messageBytes (m : Amessage) : List UInt8 := m.words.flatMap fun w => leBytes 4 w.toNat

/-- The word at index `i` of a message's bytes. -/
def wordAt (bs : List UInt8) (i : ℕ) : UInt32 := UInt32.ofNat (leValue ((bs.drop (4 * i)).take 4))

/-- The message whose bytes are `bs`. -/
def messageOf (bs : List UInt8) : Amessage where
  command := wordAt bs 0
  arg0 := wordAt bs 1
  arg1 := wordAt bs 2
  dataLength := wordAt bs 3
  dataCheck := wordAt bs 4
  magic := wordAt bs 5

/-- `sizeof(amessage)`. -/
def sizeofAmessage : ℕ := 24

@[simp] lemma length_messageBytes (m : Amessage) :
    (messageBytes m).length = sizeofAmessage := by
  simp [messageBytes, Amessage.words, sizeofAmessage]

lemma word_roundtrip (w : UInt32) : UInt32.ofNat (leValue (leBytes 4 w.toNat)) = w := by
  rw [leValue_leBytes (by have := w.toNat_lt; omega), UInt32.ofNat_toNat]

lemma messageOf_messageBytes (m : Amessage) : messageOf (messageBytes m) = m := by
  obtain ⟨a, b, c, d, e, f⟩ := m
  have h : ∀ w : UInt32, (leBytes 4 w.toNat).length = 4 := fun w => length_leBytes 4 _
  simp only [messageOf, messageBytes, wordAt, Amessage.words, List.flatMap_cons, List.flatMap_nil,
    List.append_nil, List.drop_append, List.take_append, h]
  simp [word_roundtrip, List.drop_of_length_le, List.take_of_length_le]

/-- Cutting four bytes off a list and reading them as a word loses nothing. -/
lemma leBytes_wordAt {bs : List UInt8} {i : ℕ} (h : 4 * i + 4 ≤ bs.length) :
    leBytes 4 (wordAt bs i).toNat = (bs.drop (4 * i)).take 4 := by
  set cs := (bs.drop (4 * i)).take 4 with hcs
  have hlen : cs.length = 4 := by
    rw [hcs, List.length_take, List.length_drop]
    omega
  have hlt := leValue_lt cs
  rw [hlen] at hlt
  rw [wordAt, UInt32.toNat_ofNat', ← hcs, Nat.mod_eq_of_lt (by omega)]
  have hinv := leBytes_leValue cs
  rwa [hlen] at hinv

lemma messageBytes_messageOf {bs : List UInt8} (h : bs.length = sizeofAmessage) :
    messageBytes (messageOf bs) = bs := by
  rw [sizeofAmessage] at h
  have hsplit : ∀ n, bs.drop n = (bs.drop n).take 4 ++ bs.drop (n + 4) := by
    intro n
    rw [← List.drop_drop, List.take_append_drop]
  simp only [messageBytes, messageOf, Amessage.words, List.flatMap_cons, List.flatMap_nil]
  rw [leBytes_wordAt (by omega), leBytes_wordAt (by omega), leBytes_wordAt (by omega),
    leBytes_wordAt (by omega), leBytes_wordAt (by omega), leBytes_wordAt (by omega)]
  have hend : bs.drop 24 = [] := List.drop_of_length_le (by omega)
  calc _ = (bs.drop 0).take 4 ++ ((bs.drop 4).take 4 ++ ((bs.drop 8).take 4 ++
        ((bs.drop 12).take 4 ++ ((bs.drop 16).take 4 ++ ((bs.drop 20).take 4 ++
          bs.drop 24))))) := by rw [hend]
    _ = bs := by
      rw [← hsplit 20, ← hsplit 16, ← hsplit 12, ← hsplit 8, ← hsplit 4, ← hsplit 0,
        List.drop_zero]

/-! ## The TCP transport -/

/-- `remote_read` of `transport_local.c` into a packet fresh from `get_apacket`, whose data
buffer holds `buf`. -/
def remoteRead (addr : ℕ) (buf : List UInt8) (s : List ReadResult) :
    Option Apacket × List ReadResult :=
  match readx sizeofAmessage s with
  | (none, s) => (none, s)
  | (some header, s) =>
    let msg := messageOf header
    if checkHeader msg then
      match readx msg.dataLength.toNat s with
      | (none, s) => (none, s)
      | (some payload, s) =>
        let p : Apacket :=
          { addr := addr, msg := msg, data := payload ++ buf.drop msg.dataLength.toNat }
        if checkData p then (some p, s) else (none, s)
    else (none, s)

/-- `remote_write` of `transport_local.c`: header and payload in one `writex`. -/
def remoteWrite (p : Apacket) (s : List WriteResult) :
    List UInt8 × Bool × List WriteResult :=
  writex (messageBytes p.msg ++ p.payload) s

/-- The reading loop of `output_thread`: packets until `read_from_remote` fails.  `bufs n` is
what the `n`-th packet's buffer happens to hold. -/
def readPackets (bufs : ℕ → List UInt8) : ℕ → ℕ → List ReadResult → List Apacket
  | 0, _, _ => []
  | fuel + 1, n, s =>
    match remoteRead n (bufs n) s with
    | (none, _) => []
    | (some p, s) => p :: readPackets bufs fuel (n + 1) s

/-! ## The USB transport -/

/-- `bulk_write`: accepts a zero-byte write and goes on, and calls once also if there is nothing to
write; what was written, whether all of it was, and the results left over.  `adb_write` makes an
interrupted `write` again. -/
def bulkWrite : List UInt8 → List WriteResult → List UInt8 × Bool × List WriteResult
  | _, [] => ([], false, [])
  | bs, .wrote n :: s =>
    if bs.drop n = [] then (bs, true, s)
    else
      let (out, ok, s') := bulkWrite (bs.drop n) s
      (bs.take n ++ out, ok, s')
  | bs, .intr :: s => bulkWrite bs s
  | _, .again :: s => ([], false, s)
  | _, .fail :: s => ([], false, s)

/-- `adb_write` once, as `usb_adb_write` does; a short count is a failure. -/
def writeOnce : List UInt8 → List WriteResult → List UInt8 × Bool × List WriteResult
  | _, [] => ([], false, [])
  | bs, .wrote n :: s => (bs.take n, bs.length ≤ n, s)
  | bs, .intr :: s => writeOnce bs s
  | _, .again :: s => ([], false, s)
  | _, .fail :: s => ([], false, s)

/-- The two kinds of `usb_handle`, told apart by their function pointers. -/
inductive UsbKind
  | ffs
  | adb
  deriving DecidableEq, Repr

/-- `usb_write`: `usb_ffs_write` or `usb_adb_write`. -/
def usbWrite : UsbKind → List UInt8 → List WriteResult →
    List UInt8 × Bool × List WriteResult
  | .ffs, bs, s => bulkWrite bs s
  | .adb, bs, s => writeOnce bs s

/-- `remote_write` of `transport_usb.c`: header, then the payload if there is any. -/
def usbRemoteWrite (h : UsbKind) (p : Apacket) (s : List WriteResult) :
    List UInt8 × Bool × List WriteResult :=
  match usbWrite h (messageBytes p.msg) s with
  | (out, false, s) => (out, false, s)
  | (out, true, s) =>
    if p.msg.dataLength = 0 then (out, true, s)
    else
      let (out', ok, s) := usbWrite h p.payload s
      (out ++ out', ok, s)

end Adbd
