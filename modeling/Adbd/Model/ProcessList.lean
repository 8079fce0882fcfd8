import Adbd.Framework.Memory
import Adbd.Model.Sockets

/-!
# Formatting the process list (`jdwp_service.c`)

`Daemon.jdwpProcessList` says which text `jdwp_process_list` leaves behind.  Here is how it gets
there: `snprintf` writes each line behind the one before it, cut at the end of the buffer where
there is no room for it, and returns how long the line would have been; the loop stops at a line
that does not fit and a NUL is stored where it began.

A pointer is an index into the memory.  Where the memory ends with the buffer, a store behind the
buffer is an `Overrun`.
-/

namespace Adbd.ProcessList

open Memory Daemon

variable {n : ℕ}

/-- `snprintf(p,size,…)` where the formatted text is `text`: the length of all of it, and what
fits in front of a NUL is stored. -/
def snprintf (p size : ℕ) (text : List UInt8) (m : Vector UInt8 n) :
    Except Overrun (ℕ × Vector UInt8 n) := do
  if size = 0 then pure (text.length, m)
  else
    let m ← copy p (text.take (size - 1) ++ [0]) m
    pure (text.length, m)

/-- The loop of `jdwp_process_list` with the cursor `p` in front of `bufferEnd`, and the cursor it
ends with. -/
def formatLoop (bufferEnd : ℕ) : List JdwpProcess → ℕ → Vector UInt8 n →
    Except Overrun (ℕ × Vector UInt8 n)
  | [], p, m => .ok (p, m)
  | proc :: procs, p, m =>
    if proc.pid < 0 then formatLoop bufferEnd procs p m
    else do
      let (len, m) ← snprintf p (bufferEnd - p) (pidLine proc.pid) m
      if bufferEnd ≤ p + len then pure (p, m) else formatLoop bufferEnd procs (p + len) m

/-- `jdwp_process_list`. -/
def jdwpProcessList (procs : List JdwpProcess) (buffer bufferlen : ℕ) (m : Vector UInt8 n) :
    Except Overrun (ℕ × Vector UInt8 n) := do
  let (p, m) ← formatLoop (buffer + bufferlen) procs buffer m
  let m ← store p 0 m
  pure (p - buffer, m)

/-- `jdwp_process_list_msg`.  The digits are formatted into an array of five bytes, of which four
are copied. -/
def jdwpProcessListMsg (procs : List JdwpProcess) (buffer bufferlen : ℕ) (m : Vector UInt8 n) :
    Except Overrun (ℕ × Vector UInt8 n) := do
  let (len, m) ← jdwpProcessList procs (buffer + 4) (bufferlen - 4) m
  let m ← copy buffer ((hex4 len).take 4) m
  pure (len + 4, m)

end Adbd.ProcessList
