import Adbd.Model.Wire
import Adbd.Model.State

/-!
# Services that copy a stream (`framebuffer_service.c`, `log_service.c`, `recover_service`)

Three services run in a thread of their own and do nothing but move bytes: from `screencap` or
from a log file to the host, or from the host to a file.  What they share is the descriptor they
write to, a `Sink`.  The descriptors they read from are scripts of results.
-/

namespace Adbd

open Bytes Syscall

/-! ## Descriptors -/

/-- A descriptor that is written to. -/
structure Sink where
  /-- Results of the writes; when they are used up everything is accepted. -/
  replies : List WriteResult := []
  /-- Everything written. -/
  output : List UInt8 := []
  deriving DecidableEq, Repr

/-- `writex(fd,ptr,len)`: whether it returned 0. -/
def Sink.write (bs : List UInt8) (k : Sink) : Bool × Sink :=
  let (out, ok, rest) := writex bs (k.replies ++ [.wrote bs.length])
  (ok, ⟨rest.dropLast, k.output ++ out⟩)

/-- A write appends everything or less than that. -/
lemma Sink.write_cases {k k' : Sink} {bs : List UInt8} {ok : Bool} (h : k.write bs = (ok, k')) :
    ∃ out, out <+: bs ∧ k'.output = k.output ++ out ∧
      (ok = true → out = bs) ∧ (ok = false → out.length < bs.length) := by
  obtain ⟨out, ok', rest, hw⟩ : ∃ out ok' rest,
      writeFull bs (k.replies ++ [.wrote bs.length]) = (out, ok', rest) := ⟨_, _, _, rfl⟩
  rw [Sink.write, writex, hw] at h
  cases h
  have hpre : out <+: bs := writeFull_prefix hw
  refine ⟨out, hpre, rfl, ?_, ?_⟩
  · rintro rfl
    exact writeFull_ok hw
  · rintro rfl
    exact Nat.lt_of_le_of_ne hpre.length_le fun hlen => writeFull_failed hw (hpre.eq_of_length hlen)

/-! ## `framebuffer_service` -/

def ddmsRawimageVersion : UInt32 := 1

/-- `struct fbinfo`. -/
structure Fbinfo where
  version : UInt32 := ddmsRawimageVersion
  bpp : UInt32
  size : UInt32
  width : UInt32
  height : UInt32
  redOffset : UInt32
  redLength : UInt32
  blueOffset : UInt32
  blueLength : UInt32
  greenOffset : UInt32
  greenLength : UInt32
  alphaOffset : UInt32
  alphaLength : UInt32
  deriving DecidableEq, Repr

/-- The packed structure in memory. -/
def Fbinfo.bytes (b : Fbinfo) : List UInt8 :=
  [b.version, b.bpp, b.size, b.width, b.height, b.redOffset, b.redLength, b.blueOffset,
    b.blueLength, b.greenOffset, b.greenLength, b.alphaOffset, b.alphaLength].flatMap
      fun w => leBytes 4 w.toNat

/-- The `switch` on the format; the product of `int`s, where it overflows, is taken to wrap. -/
def Fbinfo.ofFormat (w h f : UInt32) : Option Fbinfo :=
  if f = 1 then -- RGBA_8888
    some { bpp := 32, size := w * h * 4, width := w, height := h,
           redOffset := 0, redLength := 8, greenOffset := 8, greenLength := 8,
           blueOffset := 16, blueLength := 8, alphaOffset := 24, alphaLength := 8 }
  else if f = 2 then -- RGBX_8888
    some { bpp := 32, size := w * h * 4, width := w, height := h,
           redOffset := 0, redLength := 8, greenOffset := 8, greenLength := 8,
           blueOffset := 16, blueLength := 8, alphaOffset := 24, alphaLength := 0 }
  else if f = 3 then -- RGB_888
    some { bpp := 24, size := w * h * 3, width := w, height := h,
           redOffset := 0, redLength := 8, greenOffset := 8, greenLength := 8,
           blueOffset := 16, blueLength := 8, alphaOffset := 24, alphaLength := 0 }
  else if f = 4 then -- RGB_565
    some { bpp := 16, size := w * h * 2, width := w, height := h,
           redOffset := 11, redLength := 5, greenOffset := 5, greenLength := 6,
           blueOffset := 0, blueLength := 5, alphaOffset := 0, alphaLength := 0 }
  else if f = 5 then -- BGRA_8888
    some { bpp := 32, size := w * h * 4, width := w, height := h,
           redOffset := 16, redLength := 8, greenOffset := 8, greenLength := 8,
           blueOffset := 0, blueLength := 8, alphaOffset := 24, alphaLength := 8 }
  else none

/-- `sizeof(buf)`. -/
def fbBlock : ℕ := 640

/-- `readx` of `n` bytes from `screencap`, and `writex` of them to the host. -/
def copyBlock (n : ℕ) (source : List ReadResult) (host : Sink) : Bool × List ReadResult × Sink :=
  match readx n source with
  | (none, source) => (false, source, host)
  | (some bs, source) =>
    match host.write bs with
    | (ok, host) => (ok, source, host)

/-- The loop over the blocks.  Each round takes bytes off the source, which bounds the number of
rounds. -/
def copyBlocks (size : UInt32) :
    ℕ → UInt32 → List ReadResult → Sink → Bool × List ReadResult × Sink
  | 0, _, source, host => (false, source, host)
  | n + 1, i, source, host =>
    if i < size then
      match copyBlock fbBlock source host with
      | (false, source, host) => (false, source, host)
      | (true, source, host) => copyBlocks size n (i + UInt32.ofNat fbBlock) source host
    else (true, source, host)

/-- The loop and the copy behind it. -/
def copyPixels (size : UInt32) (source : List ReadResult) (host : Sink) : List ReadResult × Sink :=
  match copyBlocks size ((bytesOf source).length + 1) 0 source host with
  | (false, source, host) => (source, host)
  | (true, source, host) => (copyBlock (size.toNat % fbBlock) source host).2

/-- The service from the first `readx` on: what is left of the output of `screencap`, and the
host. -/
def framebufferCopy (source : List ReadResult) (host : Sink) : List ReadResult × Sink :=
  match readx 4 source with
  | (none, source) => (source, host)
  | (some w, source) =>
    match readx 4 source with
    | (none, source) => (source, host)
    | (some h, source) =>
      match readx 4 source with
      | (none, source) => (source, host)
      | (some f, source) =>
        match Fbinfo.ofFormat (wordAt w 0) (wordAt h 0) (wordAt f 0) with
        | none => (source, host)
        | some fbinfo =>
          match host.write fbinfo.bytes with
          | (false, host) => (source, host)
          | (true, host) => copyPixels fbinfo.size source host

/-- `framebuffer_service`, where `piped` and `forked` tell whether `pipe` and `fork` work. -/
def framebufferService (piped forked : Bool) (source : List ReadResult) (host : Sink) :
    List ReadResult × Sink :=
  if piped && forked then framebufferCopy source host else (source, host)

/-! ## `recover_service` -/

/-- What a recovery upload leaves behind. -/
structure Recovery where
  /-- `/tmp/update`, if it could be created. -/
  update : Option Sink
  /-- What the host is told. -/
  answer : Option (List UInt8)
  client : List ReadResult
  /-- Whether `/tmp/update.begin` is created. -/
  begun : Bool
  deriving DecidableEq, Repr

/-- The loop of `recover_service`: `count` where it is left, which at most `n` rounds do. -/
def recoverLoop : ℕ → ℕ → List ReadResult → Sink → ℕ × List ReadResult × Sink
  | 0, count, client, file => (count, client, file)
  | n + 1, count, client, file =>
    if 0 < count then
      let xfer := if 4096 < count then 4096 else count
      match readx xfer client with
      | (none, client) => (count, client, file)
      | (some bs, client) =>
        match file.write bs with
        | (false, file) => (count, client, file)
        | (true, file) => recoverLoop n (count - xfer) client file
    else (count, client, file)

/-- `recover_service`; `update` tells how the writes to `/tmp/update` will go, if it can be
created. -/
def recoverService (count : UInt32) (client : List ReadResult)
    (update : Option (List WriteResult)) : Recovery :=
  match update with
  | none => ⟨none, none, client, false⟩
  | some replies =>
    match recoverLoop (count.toNat + 1) count.toNat client { replies := replies } with
    | (count, client, file) =>
      ⟨some file, some (if count ≠ 0 then str "OKAY" else str "FAIL"), client, true⟩

/-! ## `log_service` -/

def loggerEntryMaxLen : ℕ := 5 * 1024

/-- `sizeof(struct logger_entry)`. -/
def loggerEntrySize : ℕ := 20

/-- Result of `unix_read(logfd,entry,LOGGER_ENTRY_MAX_LEN)`; `data []` is the end of the file. -/
inductive LogRead
  | data (bs : List UInt8) (h : bs.length ≤ loggerEntryMaxLen)
  /-- `EINTR` or `EAGAIN`. -/
  | retry
  | fail
  deriving DecidableEq, Repr

/-- One round of the loop of `log_service`. -/
structure LogRound where
  /-- What `unix_read` has put at the front of `buf`. -/
  read : List UInt8
  /-- Where in `buf` the terminating NUL is stored. -/
  nul : ℕ
  /-- How many bytes of `buf` `write_log_entry` is to send. -/
  size : ℕ
  deriving DecidableEq, Repr

/-- `entry->len`, the first field of the entry in `buf`. -/
def entryLen (buf : List UInt8) : ℕ := leValue (buf.take 2)

/-- `write_log_entry`, which does not look at the result of its `writex`. -/
def writeLogEntry (buf : List UInt8) (host : Sink) : Sink :=
  (host.write (buf.take (loggerEntrySize + entryLen buf))).2

/-- The loop of `log_service`: its rounds, and the host.  A NUL that is stored outside of `buf`,
which has `LOGGER_ENTRY_MAX_LEN+1` bytes, ends the run, since nothing can be said about what
follows. -/
def logLoop : List LogRead → List UInt8 → Sink → List LogRound × Sink
  | [], _, host => ([], host)
  | .retry :: rs, buf, host => logLoop rs buf host
  | .fail :: _, _, host => ([], host)
  | .data bs _ :: rs, buf, host =>
    if bs = [] then ([], host)
    else
      let buf := bs ++ buf.drop bs.length
      let nul := loggerEntrySize + entryLen buf
      if loggerEntryMaxLen + 1 ≤ nul then ([⟨bs, nul, nul⟩], host)
      else
        let buf := buf.set nul 0
        match logLoop rs buf (writeLogEntry buf host) with
        | (rounds, host) => (⟨bs, nul, loggerEntrySize + entryLen buf⟩ :: rounds, host)

/-- `log_service`; `log` is what the reads of the log file return, if it can be opened, and `buf`
is what the buffer on the stack holds. -/
def logService (log : Option (List LogRead)) (buf : List UInt8) (host : Sink) :
    List LogRound × Sink :=
  match log with
  | none => ([], host)
  | some rs => logLoop rs buf host

end Adbd
