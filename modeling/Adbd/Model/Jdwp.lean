import Adbd.Model.Sockets
import Mathlib.Data.List.TakeWhile

/-!
# JDWP processes (`jdwp_service.c`)

What `jdwp_process_event` and `create_jdwp_connection_fd` do to one `JdwpProcess`.  A process
makes itself known by four bytes, its pid in hexadecimal; from then on descriptors are queued for
it in `out_fds`, and passed on one at a time when its socket can be written.
-/

namespace Adbd

open Syscall Daemon

namespace Daemon

/-- `sscanf("%04x")` of the four bytes of the handshake: an optional sign, an optional `0x`,
and digits; `none` if nothing is converted. -/
def scanPid (bs : List UInt8) : Option Int :=
  let signed := fun ds : List UInt8 =>
    let ds := match ds with
      | 0x30 :: x :: rest => if x = 0x78 ∨ x = 0x58 then rest else ds
      | _ => ds
    let digits := ds.takeWhile fun c => (unhex [c]).isSome
    if digits = [] then none else (unhex digits).map Int.ofNat
  match bs.dropWhile isSpace with
  | 0x2d :: ds => (signed ds).map (- ·)
  | 0x2b :: ds => signed ds
  | ds => signed ds

lemma unhex_isSome {c : UInt8} (h : (unhex [c]).isSome = true) :
    0x30 ≤ c ∧ c ≤ 0x39 ∨ 0x61 ≤ c ∧ c ≤ 0x66 ∨ 0x41 ≤ c ∧ c ≤ 0x46 := by
  simp only [unhex, List.foldl_cons, List.foldl_nil] at h
  grind

/-- Hex digits are scanned to the number they spell. -/
lemma scanPid_of_hex {bs : List UInt8} (hne : bs ≠ [])
    (h : ∀ c ∈ bs, (unhex [c]).isSome = true) : scanPid bs = (unhex bs).map Int.ofNat := by
  cases bs with
  | nil => exact absurd rfl hne
  | cons c ds =>
    have hc := unhex_isSome (h c List.mem_cons_self)
    have hspace : isSpace c = false := by
      simp only [isSpace]
      grind
    have hplain : ∀ x rest, ds = x :: rest → ¬(x = 0x78 ∨ x = 0x58) := by
      rintro x rest rfl
      have hx := unhex_isSome (h x (List.mem_cons_of_mem _ List.mem_cons_self))
      grind
    have hdigits : (c :: ds).takeWhile (fun c => (unhex [c]).isSome) = c :: ds :=
      List.takeWhile_eq_self_iff.mpr h
    rw [scanPid, List.dropWhile_cons_of_neg (by rw [hspace]; decide)]
    split
    case h_1 heq => grind
    case h_2 heq => grind
    case h_3 =>
      dsimp only
      split
      case h_1 x rest heq =>
        obtain ⟨rfl, rfl⟩ := List.cons.inj heq
        rw [if_neg (hplain x rest rfl), hdigits, if_neg (List.cons_ne_nil _ _)]
      case h_2 => rw [hdigits, if_neg (List.cons_ne_nil _ _)]

end Daemon

/-- `MAX_OUT_FDS`. -/
def maxOutFds : ℕ := 4

/-- The next `fcntl`. -/
def fcntl : List Bool → Bool × List Bool
  | [] => (true, [])
  | ok :: cs => (ok, cs)

namespace JdwpProcess

/-- The descriptors that are queued. -/
def pending (proc : JdwpProcess) : List ℕ := proc.outFds.take proc.outCount

/-! ## `FDE_READ` -/

/-- How the `FDE_READ` branch of `jdwp_process_event` ends. -/
inductive Readable
  /-- There is nothing more to read. -/
  | wait
  /-- The pid has just been set; the function goes on. -/
  | known
  /-- `CloseProcess`. -/
  | close
  deriving DecidableEq

/-- The `FDE_READ` branch: the handshake, or a wait for the process to go away, during which
anything it says is ignored. -/
def readable (proc : JdwpProcess) (reads : List ReadResult) :
    Readable × JdwpProcess × List ReadResult :=
  if proc.pid < 0 then
    let (bytes, eof, rs) := readLoop (4 - proc.inBuff.length) reads
    let proc := { proc with inBuff := proc.inBuff ++ bytes }
    if eof then (.close, proc, rs)
    else if proc.inBuff.length < 4 then (.wait, proc, rs)
    else
      match scanPid proc.inBuff with
      | none => (.close, proc, rs)
      | some pid => (.known, { proc with pid := pid }, rs)
  else
    let (_, eof, rs) := readLoop ((bytesOf reads).length + 1) reads
    (if eof then .close else .wait, proc, rs)

/-! ## `FDE_WRITE` -/

/-- The loop that moves the descriptors behind the first one, `for(n=1;n<out_count;n++)`, with
`k` rounds to go. -/
def shiftFds : ℕ → ℕ → List ℕ → List ℕ
  | _, 0, fds => fds
  | n, k + 1, fds => shiftFds (n + 1) k (fds.set (n - 1) (fds.getD n 0))

/-- How the `FDE_WRITE` branch of `jdwp_process_event` ends. -/
inductive Writable
  /-- There is nothing queued. -/
  | idle
  /-- `CloseProcess`, when the descriptor may have been passed on and closed. -/
  | failed (closed : Option ℕ)
  | sent (fd : ℕ)
  deriving DecidableEq

/-- The `FDE_WRITE` branch: `sendmsg` takes a descriptor with one byte of data, on a socket that
blocks meanwhile.  If the flags cannot be restored the count stays as it was. -/
def writable (proc : JdwpProcess) (fcntls : List Bool) (sends : List WriteResult) :
    Writable × JdwpProcess × List Bool × List WriteResult :=
  if proc.outCount = 0 then (.idle, proc, fcntls, sends)
  else
    let fd := proc.outFds.getD 0 0
    match fcntl fcntls with
    | (false, cs) => (.failed none, proc, cs, sends)
    | (true, cs) =>
    match fcntl cs with
    | (false, cs) => (.failed none, proc, cs, sends)
    | (true, cs) =>
    match writeSome [0x21] sends with
    | (none, ws) => (.failed none, proc, cs, ws)
    | (some _, ws) =>
    let proc := { proc with outFds := shiftFds 1 (proc.outCount - 1) proc.outFds }
    match fcntl cs with
    | (false, cs) => (.failed (some fd), proc, cs, ws)
    | (true, cs) => (.sent fd, { proc with outCount := proc.outCount - 1 }, cs, ws)

/-! ## `create_jdwp_connection_fd` -/

/-- `proc->out_fds[proc->out_count]=fd; ++proc->out_count`. -/
def enqueue (fd : ℕ) (proc : JdwpProcess) : JdwpProcess :=
  { proc with outFds := proc.outFds.set proc.outCount fd, outCount := proc.outCount + 1 }

end JdwpProcess

end Adbd
