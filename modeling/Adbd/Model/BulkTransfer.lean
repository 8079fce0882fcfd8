import Adbd.Framework.Transfer
import Adbd.Model.Wire

/-!
# The transfer loops (`transport.c`, `usb_linux_client.c`)

`readx` and `writex` of `transport.c` and `bulk_read` and `bulk_write` of `usb_linux_client.c`
transfer a whole buffer by calls of `adb_read` and `adb_write`.  Here they are functions of the
results of the system calls these make, so that it shows whether they return at all: `none` means
that there would be another system call.  `adb_read` and `adb_write` are `TEMP_FAILURE_RETRY` of
`read` and `write`: they return the first result that is not `EINTR`, and the loops' own tests for
`EINTR` find none.

In `readx` of `Adbd.Model.Wire` a list of results that is used up is an end of file, and in
`writex` a failure.
-/

namespace Adbd.BulkTransfer

open Syscall

/-! ## The calls -/

/-- What a result of the `read` in `adb_read` says. -/
def readKind : ReadResult → CallKind
  | .data bs => .moved bs.length
  | .intr => .intr
  | .again | .fail => .error

/-- The bytes `adb_read(fd,p+off,len-off)` stores. -/
def readUnits (len : ℕ) (r : ReadResult) (off : ℕ) : List UInt8 :=
  match r with
  | .data bs => bs.take (len - off)
  | _ => []

/-- What a result of the `write` in `adb_write` says. -/
def writeKind : WriteResult → CallKind
  | .wrote n => .moved n
  | .intr => .intr
  | .again | .fail => .error

/-- The bytes `adb_write(fd,buf+off,len-off)` takes. -/
def writeUnits (buf : List UInt8) (r : WriteResult) (off : ℕ) : List UInt8 :=
  match r with
  | .wrote n => (buf.drop off).take n
  | _ => []

lemma length_readUnits (len : ℕ) (r : ReadResult) (off : ℕ) :
    (readUnits len r off).length = min (readKind r).size (len - off) := by
  cases r with
  | data bs =>
    change (bs.take (len - off)).length = min bs.length (len - off)
    rw [List.length_take, Nat.min_comm]
  | again => exact (Nat.zero_min _).symm
  | intr => exact (Nat.zero_min _).symm
  | fail => exact (Nat.zero_min _).symm

lemma length_writeUnits (buf : List UInt8) (r : WriteResult) (off : ℕ) :
    (writeUnits buf r off).length = min (writeKind r).size (buf.length - off) := by
  cases r with
  | wrote n =>
    change ((buf.drop off).take n).length = min n (buf.length - off)
    rw [List.length_take, List.length_drop]
  | again => exact (Nat.zero_min _).symm
  | intr => exact (Nat.zero_min _).symm
  | fail => exact (Nat.zero_min _).symm

def reading (len : ℕ) : FullTransfer ReadResult UInt8 where
  len := len
  kind := readKind
  units := readUnits len
  length_units := length_readUnits len

def writing (buf : List UInt8) : FullTransfer WriteResult UInt8 where
  len := buf.length
  kind := writeKind
  units := writeUnits buf
  length_units := length_writeUnits buf

/-! ## The loops -/

section Loops

variable {ρ : Type}

/-- `while(len>0)`: 0, or -1 at a result that is neither positive nor `EINTR`, and the bytes
transferred. -/
def transferx (T : FullTransfer ρ UInt8) (rs : List ρ) : Option (ℤ × List UInt8) :=
  (T.strict [] rs).map fun p => (if p.1 then 0 else -1, p.2)

/-- `do … while(count<length)`: `count` as an `int`, or the negative result of the call that
failed, and the bytes transferred. -/
def bulk (T : FullTransfer ρ UInt8) (rs : List ρ) : Option (ℤ × List UInt8) :=
  (T.insistent [] rs).map fun p => (if p.1 then (p.2.length : ℤ).bmod (2 ^ 32) else -1, p.2)

/-- 0 if the bulk transfer of `len` bytes returned `len`, -1 if not. -/
def usbFfs (T : FullTransfer ρ UInt8) (rs : List ρ) : Option (ℤ × List UInt8) :=
  (bulk T rs).map fun p => (if p.1 = (T.len : ℤ) then 0 else -1, p.2)

end Loops

/-- `readx(fd,ptr,len)`. -/
def readx (len : ℕ) : List ReadResult → Option (ℤ × List UInt8) := transferx (reading len)

/-- `writex(fd,buf,len)`, where `buf` has `len` bytes. -/
def writex (buf : List UInt8) : List WriteResult → Option (ℤ × List UInt8) :=
  transferx (writing buf)

/-- `bulk_read(bulk_out,buf,length)`. -/
def bulkRead (length : ℕ) : List ReadResult → Option (ℤ × List UInt8) := bulk (reading length)

/-- `bulk_write(bulk_in,buf,length)`, where `buf` has `length` bytes. -/
def bulkWrite (buf : List UInt8) : List WriteResult → Option (ℤ × List UInt8) :=
  bulk (writing buf)

/-- `usb_ffs_read(h,data,len)`. -/
def usbFfsRead (len : ℕ) : List ReadResult → Option (ℤ × List UInt8) := usbFfs (reading len)

/-- `usb_ffs_write(h,data,len)`, where `data` has `len` bytes. -/
def usbFfsWrite (data : List UInt8) : List WriteResult → Option (ℤ × List UInt8) :=
  usbFfs (writing data)

end Adbd.BulkTransfer
