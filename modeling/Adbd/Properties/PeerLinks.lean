import Adbd.Effects.Step

/-!
# The links between sockets

Between two events every peer link goes both ways, joins kinds that belong together and leads to
a live socket, and the lists of the daemon only hold live sockets.  A socket that has been freed
is never touched again.
-/

namespace Adbd.PeerLinks

open Function Transition Relation Daemon

/-- The links between the sockets of `D`, and from the lists to the sockets, are intact. -/
structure Intact (D : Daemon) : Prop where
  symmetric : ∀ a s r, D.sockets a = some s → s.peer = some r →
    ∃ q, D.sockets r = some q ∧ q.peer = some a
  fdPeer : ∀ a s r q, D.sockets a = some s → s.ops.isFd = true → s.peer = some r →
    D.sockets r = some q → q.ops = .remote ∨ q.ops = .smart
  jdwpPeer : ∀ a s r q, D.sockets a = some s → s.ops = .jdwp ∨ s.ops = .tracker →
    s.peer = some r → D.sockets r = some q → q.ops = .remote
  remotePeer : ∀ r q, D.sockets r = some q → q.ops = .remote → ∃ a, q.peer = some a
  /-- The disconnect record of a remote socket is linked once, and only with its transport. -/
  record : ∀ r q, D.sockets r = some q → q.ops = .remote →
    ∃ t x, q.transport = some t ∧ D.transports t = some x ∧ x.disconnects.count r = 1 ∧
      ∀ u y, D.transports u = some y → r ∈ y.disconnects → u = t
  /-- Nothing refers to a freed socket. -/
  listed : ∀ a ∈ D.localSocketList, (D.sockets a).isSome
  closing : ∀ a ∈ D.localSocketClosingList, (D.sockets a).isSome
  disconnects : ∀ t x, D.transports t = some x → ∀ r ∈ x.disconnects, (D.sockets r).isSome

section Links

variable {D : Daemon}

lemma pairs_fd {k l : SocketOps} (h : k.pairs l = true) (hk : k.isFd = true) :
    l = .remote ∨ l = .smart := by
  cases k <;> cases l <;> simp_all [SocketOps.pairs, SocketOps.isFd, SocketOps.isLocal]

lemma pairs_jdwp {k l : SocketOps} (h : k.pairs l = true) (hk : k = .jdwp ∨ k = .tracker) :
    l = .remote := by
  rcases hk with rfl | rfl <;> cases l <;> simp_all [SocketOps.pairs, SocketOps.isLocal]

/-- A consistent state has intact links. -/
lemma intact_of_wf (h : Wf { d := D }) : Intact D := by
  have hX : ∀ a : Addr, a ∉ (∅ : Set Addr) := Set.notMem_empty
  have hpaired := fun a s r hs hp => h.peers.paired a s r (hX a) hs hp
  refine ⟨?_, ?_, ?_, ?_, ?_, ?_, ?_, ?_⟩
  · intro a s r hs hp
    obtain ⟨-, q, hq, hback, -⟩ := hpaired a s r hs hp
    exact ⟨q, hq, hback⟩
  · intro a s r q hs hfd hp hq
    obtain ⟨-, q', hq', -, hpairs⟩ := hpaired a s r hs hp
    rw [hq, Option.some.injEq] at hq'
    exact pairs_fd (hq' ▸ hpairs) hfd
  · intro a s r q hs hops hp hq
    obtain ⟨-, q', hq', -, hpairs⟩ := hpaired a s r hs hp
    rw [hq, Option.some.injEq] at hq'
    exact pairs_jdwp (hq' ▸ hpairs) hops
  · intro r q hq hrem
    rcases Option.eq_none_or_eq_some q.peer with hnone | hsome
    · have hfd := h.peers.unpaired r q (hX r) hq hnone
      rw [hrem] at hfd
      cases hfd
    · exact hsome
  · intro r q hq hrem
    obtain ⟨t, l, ht, hl, hmem⟩ := h.peers.linked r q hq hrem
    obtain ⟨x, hx, rfl⟩ := Option.map_eq_some_iff.mp hl
    refine ⟨t, x, ht, hx, ?_, ?_⟩
    · have hnodup := (h.peers.records t _ (disconnectsOf_eq hx)).1
      exact le_antisymm (List.nodup_iff_count.mp hnodup r) (List.count_pos_iff.mpr hmem)
    · intro u y hy hu
      obtain ⟨s, hs, -, hsu⟩ := (h.peers.records u _ (disconnectsOf_eq hy)).2 r hu
      rw [show D.sockets r = some q from hq, Option.some.injEq] at hs
      rw [← hs, ht, Option.some.injEq] at hsu
      exact hsu.symm
  · intro a ha
    obtain ⟨s, hs, -⟩ := h.peers.listed a ha
    exact Option.isSome_iff_exists.mpr ⟨s, hs⟩
  · intro a ha
    obtain ⟨s, hs, -⟩ := h.peers.flushing a ha
    exact Option.isSome_iff_exists.mpr ⟨s, hs⟩
  · intro t x hx r hr
    obtain ⟨s, hs, -⟩ := (h.peers.records t _ (disconnectsOf_eq hx)).2 r hr
    exact Option.isSome_iff_exists.mpr ⟨s, hs⟩

/-- In every state between two events the links are intact. -/
theorem links_intact (h : Reachable D) : Intact D := intact_of_wf h.wf

end Links

/-! ## A run with a stream -/

/-- The packet `command(arg0, arg1)` with `data`, as another machine sends it. -/
def packetOf (command arg0 arg1 : UInt32) (data : List UInt8) : Apacket :=
  stamp { addr := 0, msg := { command, arg0, arg1, dataLength := UInt32.ofNat data.length }, data }

/-- The first transport's pair, whose near end is `n`, has something to read. -/
def handleNext (n : ℕ) (io : Io) : List Event :=
  [⟨.epollWait [(n, ⟨true, false, false⟩)], {}⟩, ⟨.dispatch, io⟩]

/-- Transport `t` reads the packet, and the main loop handles it. -/
def carry (t : TAddr) (n : ℕ) (p : Apacket) (io : Io) : List Event :=
  ⟨.output t, { packet := some p }⟩ :: handleNext n io

/-- A TCP connection is accepted and registered: its descriptors are `sfd`, `n` and `k`. -/
def connect (t : TAddr) (sfd n k : ℕ) : List Event :=
  ⟨.registerSocket [], { fds := [sfd] }⟩ ::
    (handleNext 4 { fds := [n, k] } ++ ⟨.output t, {}⟩ :: handleNext n {})

/-- A host connects and opens a shell, which gets the descriptor 13. -/
def openShell : List Event :=
  connect 0 10 11 12 ++ carry 0 11 (packetOf aCnxn aVersion 4096 (str "host::" ++ [0])) {} ++
    carry 0 11 (packetOf aOpen 7 0 (str "shell:" ++ [0])) { fds := [13] }

/-- The daemon without authentication, as `adb_main` leaves it. -/
def unlocked : Config := { authEnabled := false }

/-- The theorem in a state with a stream. -/
theorem links_intact_shell : ∃ D, Reachable D ∧ (∃ s, D.sockets 0 = some s ∧ s.peer = some 1) ∧
    Intact D := by
  obtain ⟨D, hD, hs⟩ := @exists_reachable (Option (Option Addr)) unlocked [3, 4, 6, 7, 8, 9]
    (fun _ => false) openShell (fun D => (D.sockets 0).map (·.peer)) (some (some 1))
    (by decide +kernel)
  exact ⟨D, hD, Option.map_eq_some_iff.mp hs, links_intact hD⟩

/-- Every step ends: a `close` calls at most that of the peer and goes no deeper, the walk over the
disconnect records takes a round for each of them, and `close_all_sockets` starts again at most once
for each socket. -/
theorem always_ends {D : Daemon} (h : Reachable D) (e : Event) : D.step e ≠ .error .outOfFuel := by
  intro hstop
  obtain ⟨m, -, hm⟩ := stops_of_step h.wf hstop
  exact hm

/-- So do all that can follow in the state with a shell. -/
theorem always_ends_shell : ∃ D, Reachable D ∧ (D.sockets 0).isSome = true ∧
    ∀ e, D.step e ≠ .error .outOfFuel := by
  obtain ⟨D, hD, hs⟩ := @exists_reachable Bool unlocked [3, 4, 6, 7, 8, 9] (fun _ => false)
    openShell (fun D => (D.sockets 0).isSome) true (by decide +kernel)
  exact ⟨D, hD, hs, fun e => always_ends hD e⟩

end Adbd.PeerLinks
