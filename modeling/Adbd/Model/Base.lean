import Mathlib.Algebra.Ring.Int.Defs
import Mathlib.Algebra.Ring.Nat
import Mathlib.Data.List.Basic
import Mathlib.Tactic.Lemma

/-!
# Addresses and the ways the daemon stops

Heap objects are named by numbers that are never handed out twice, so a freed object keeps its
name and a stale pointer to it stays recognisable: looking it up is a *stop*, not a read of
whatever the allocator put there since.  A run of the daemon ends at a stop, and nothing is
said about an execution past one.  `exit`, `abort` and the undefined behaviours of C (a null
or freed object dereferenced) are the stops below; `disabled` is the model's own, for an event
that cannot happen in the state it is offered in.
-/

namespace Adbd

/-- Address of an `asocket`. -/
abbrev Addr := ℕ

/-- Address of an `atransport`. -/
abbrev TAddr := ℕ

/-- Why the daemon stopped. -/
inductive Stop
  /-- The event is not possible in this state. -/
  | disabled
  /-- `fdevent_update`: `epoll_ctl` failed on the descriptor, `exit(1)`. -/
  | epollCtl (fd : ℕ)
  /-- `FATAL` of `fdevent.c` (descriptor out of range, `fd_table` out of sync), `abort()`. -/
  | fatalFd (fd : ℕ)
  /-- `local_socket_destroy` of a socket with `exit_on_close`, `exit(1)`. -/
  | exitOnClose (a : Addr)
  /-- `send_packet`: the write to the transport socket failed with the pair closed,
  `fatal_errno`. -/
  | cannotEnqueue (t : TAddr)
  /-- `send_packet`: the write to the transport socket failed with the pair full (`EAGAIN`),
  `fatal_errno`. -/
  | queueFull (t : TAddr)
  /-- `connect_to_remote`: destination longer than a packet, `fatal`. -/
  | destinationOversized
  /-- `s->peer` of the socket was dereferenced while null. -/
  | nullPeer (a : Addr)
  /-- A freed `asocket` was dereferenced. -/
  | freedSocket (a : Addr)
  /-- A freed `atransport` was dereferenced. -/
  | freedTransport (t : TAddr)
  /-- A freed tracker still linked in `_jdwp_trackers_list` was dereferenced. -/
  | staleTracker (a : Addr)
  /-- An `fd_table` slot that was never written was dereferenced. -/
  | wildFde (fd : ℕ)
  /-- A packet that was given back was dereferenced. -/
  | freedPacket (addr : ℕ)
  /-- `s->pkt_last` was dereferenced while null. -/
  | nullPacket
  /-- A C string was read past the end of its buffer. -/
  | overread
  /-- A fixed buffer was written past its end. -/
  | overflow
  /-- The number of a transport's descriptor names another open file by now. -/
  | strayDescriptor (fd : ℕ)
  /-- `fatal_errno` and `FATAL` after a system call that failed, `exit`. -/
  | fatalErrno
  /-- The model's bound on a nesting or a loop was reached. -/
  | outOfFuel
  deriving DecidableEq, Repr

end Adbd
