import Adbd.Accounts.Turns
import Adbd.Properties.PeerLinks

/-!
# Who owns a packet

A packet belongs to whoever was given it last, and nothing in the program says so: `enqueue` takes
the packet whatever it returns, and its callers never free it.  `local_socket_enqueue` forgets one
packet.  When it is the only one for its socket and the write fails, the socket is closed before
the packet has been linked, and nobody calls `put_apacket`.  All other packets that the main loop
has been given or has asked for are in one place.
-/

namespace Adbd.Ownership

open Function Transition Daemon PeerLinks

variable {D D' D₁ : Daemon} {e : Event} {n : ℕ}

/-- The step has no `A_WRTE` for a socket with nothing queued whose write fails. -/
def Keeps (e : Event) (D : Daemon) : Prop := ∀ t p, Hands e D t p → ¬Fails e D t p

/-- The packet is in one place: linked in a queue, released, or handed on, in which case the
`input_thread` may still have to release it. -/
def InOnePlace (n : ℕ) (D : Daemon) : Prop :=
  (D.linked n = 1 ∧ D.released n = 0 ∧ D.handedOn n = 0) ∨
  (D.linked n = 0 ∧ D.released n = 1 ∧ D.handedOn n = 0) ∨
  (D.linked n = 0 ∧ D.handedOn n = 1 ∧ D.released n + D.outgoing n ≤ 1)

/-- The step gives packet `n` to the main loop: it hands it to `handle_packet`, or the main loop
asks for it. -/
def Given (e : Event) (D D' : Daemon) (n : ℕ) : Prop :=
  (∃ t p, Hands e D t p ∧ p.addr = n) ∨
    D.nextPacket ≤ n ∧ n < D'.nextPacket ∧ ∀ t, e.action ≠ .output t

/-- Packet `n` is in at most one place, and `b` times an `input_thread` has released it. -/
structure Tidy (n b : ℕ) (D : Daemon) : Prop where
  account : D.account n + D.incoming n ≤ 1 + b
  handedOn : b + D.outgoing n ≤ D.handedOn n
  released : b ≤ D.released n

/-- As `Tidy`, for a packet of the main loop. -/
structure Settled (n b : ℕ) (D : Daemon) : Prop where
  account : D.account n = 1 + b
  incoming : D.incoming n = 0
  handedOn : b + D.outgoing n ≤ D.handedOn n
  released : b ≤ D.released n

/-! ## One step -/

lemma single_self (v : ℤ) : (Pi.single n v : ℕ → ℤ) n = v := by
  rw [Pi.single_apply, if_pos rfl]

lemma single_other {m : ℕ} (v : ℤ) (h : n ≠ m) : (Pi.single m v : ℕ → ℤ) n = 0 := by
  rw [Pi.single_apply, if_neg h]

/-- What was in one place at most stays so. -/
lemma Turn.tidy {b : ℕ} (ht : Daemon.Turn e D D') (hrel : D.released n ≤ D'.released n)
    (h : Tidy n b D) : ∃ b', Tidy n b' D' := by
  obtain ⟨haccount, hhanded, hreleased⟩ := h
  -- a change that keeps the sum of the two places
  have hkept : ∀ {g i : ℕ → ℤ}, Shift g i 0 D D' → g n + i n ≤ 0 → Tidy n b D' := by
    intro g i hs hsum
    have hacc := hs.account n
    have hin := hs.incoming n
    have hflow := hs.flow n
    rw [Pi.zero_apply] at hflow
    constructor
    · omega
    · omega
    · omega
  cases ht with
  | quiet hs =>
    refine ⟨b, hkept hs ?_⟩
    rw [Pi.zero_apply, add_zero]
  | take t p hands hin htaken =>
    refine ⟨b, ?_⟩
    rcases htaken with ⟨-, hs⟩ | ⟨-, hs⟩
    · refine hkept hs ?_
      by_cases hn : n = p.addr
      · subst hn
        rw [single_self, Pi.zero_apply]
        omega
      · rw [single_other _ hn, Pi.zero_apply, add_zero]
    · refine hkept hs ?_
      by_cases hn : n = p.addr
      · subst hn
        rw [single_self, single_self]
        omega
      · rw [single_other _ hn, single_other _ hn, add_zero]
  | arrive hact hs =>
    refine ⟨b, hkept hs ?_⟩
    by_cases hn : n = D.nextPacket
    · rw [hn, single_self, single_self]
      omega
    · rw [single_other _ hn, single_other _ hn, add_zero]
  | giveBack i hs hback =>
    have hacc := hs.account n
    have hin := hs.incoming n
    have hflow := hs.flow n
    rw [Pi.zero_apply] at hin
    by_cases hn : n = i
    · subst hn
      rw [single_self] at hacc hflow
      refine ⟨b + 1, ?_, ?_, ?_⟩
      · omega
      · omega
      · omega
    · rw [single_other _ hn] at hacc hflow
      refine ⟨b, ?_, ?_, ?_⟩
      · omega
      · omega
      · omega

/-- A packet of the main loop keeps its place, or is given another one. -/
lemma Turn.settled {b : ℕ} (ht : Daemon.Turn e D D') (hk : Keeps e D)
    (hold : (∃ t, e.action = .output t) → n < D.nextPacket)
    (hrel : D.released n ≤ D'.released n) (h : Settled n b D) : ∃ b', Settled n b' D' := by
  obtain ⟨haccount, hincoming, hhanded, hreleased⟩ := h
  have hkept : ∀ {g i : ℕ → ℤ}, Shift g i 0 D D' → g n = 0 → i n ≤ 0 → Settled n b D' := by
    intro g i hs hg hi
    have hacc := hs.account n
    have hin := hs.incoming n
    have hflow := hs.flow n
    rw [Pi.zero_apply] at hflow
    refine ⟨?_, ?_, ?_, ?_⟩
    · omega
    · omega
    · omega
    · omega
  cases ht with
  | quiet hs => exact ⟨b, hkept hs rfl (le_refl _)⟩
  | take t p hands hin htaken =>
    have hn : n ≠ p.addr := by
      rintro rfl
      omega
    rcases htaken with ⟨hfail, -⟩ | ⟨-, hs⟩
    · exact absurd hfail (hk t p hands)
    · exact ⟨b, hkept hs (single_other _ hn) (single_other _ hn).le⟩
  | arrive hact hs =>
    have hn : n ≠ D.nextPacket := (hold hact).ne
    exact ⟨b, hkept hs (single_other _ hn) (single_other _ hn).le⟩
  | giveBack i hs hback =>
    by_cases hn : n = i
    · subst hn
      have hacc := hs.account n
      have hin := hs.incoming n
      have hflow := hs.flow n
      rw [single_self] at hacc hflow
      rw [Pi.zero_apply] at hin
      refine ⟨b + 1, ?_, ?_, ?_, ?_⟩
      · omega
      · omega
      · omega
      · omega
    · have hacc := hs.account n
      have hin := hs.incoming n
      have hflow := hs.flow n
      rw [single_other _ hn] at hacc hflow
      rw [Pi.zero_apply] at hin
      refine ⟨b, ?_, ?_, ?_, ?_⟩
      · omega
      · omega
      · omega
      · omega

/-- A packet the main loop is given has one place after the step. -/
lemma Given.settled {b : ℕ} (hg : Given e D D' n) (hwf : Wf { d := D }) (hD : D.Sane)
    (hs : D.step e = .ok D') (hk : Keeps e D) (hrel : D.released n ≤ D'.released n)
    (h : Tidy n b D) : (∃ b', Settled n b' D') ∧ n < D'.nextPacket := by
  obtain ⟨haccount, hhanded, hreleased⟩ := h
  have hsum : D.account n = D.linked n + D.released n + D.handedOn n + D.unused n := rfl
  rcases hg with ⟨t, p, hands, rfl⟩ | ⟨hnew, hused, hact⟩
  · obtain ⟨hin, ⟨hfail, -⟩ | ⟨-, hshift⟩⟩ := taken_of_hands hwf hD hands hs
    · exact absurd hfail (hk t p hands)
    · have hacc := hshift.account p.addr
      have hinc := hshift.incoming p.addr
      have hflow := hshift.flow p.addr
      have hnext := hshift.next
      rw [single_self] at hacc hinc
      rw [Pi.zero_apply] at hflow
      have hold : p.addr < D.nextPacket := by
        by_contra hno
        rw [Daemon.unused, if_neg hno] at hsum
        omega
      refine ⟨⟨b, ?_, ?_, ?_, ?_⟩, hold.trans_le hnext⟩
      · omega
      · omega
      · omega
      · omega
  · have hunused : D.unused n = 1 := by
      rw [Daemon.unused, if_neg (Nat.not_lt.mpr hnew)]
    have hsettled : Settled n b D := by
      constructor
      · omega
      · omega
      · omega
      · omega
    have hturn := Outcome.success (step_turn hwf hD) hs
    exact ⟨Turn.settled hturn hk (fun h => h.elim fun t ht => absurd ht (hact t)) hrel hsettled,
      hused⟩

/-- A settled packet that has been asked for is in one place. -/
lemma Settled.inOnePlace {b : ℕ} (h : Settled n b D) (hused : n < D.nextPacket) :
    InOnePlace n D := by
  obtain ⟨haccount, -, hhanded, hreleased⟩ := h
  rw [Daemon.account, Daemon.unused, if_pos hused] at haccount
  rw [InOnePlace]
  omega

/-! ## Runs -/

/-- What has to be known of a state in which packets are tidy. -/
structure Accounted (D : Daemon) : Prop where
  wf : Wf { d := D }
  sane : D.Sane
  tidy : ∀ n, ∃ b, Tidy n b D

lemma released_mono (h : Wf { d := D }) (hs : D.step e = .ok D') (n : ℕ) :
    D.released n ≤ D'.released n :=
  (trace_of_path (path_of_step h hs)).sublist.countP_le

lemma Accounted.step (h : Accounted D) (hs : D.step e = .ok D') : Accounted D' := by
  have hturn := Outcome.success (step_turn h.wf h.sane) hs
  refine ⟨wf_of_step h.wf hs, ?_, fun n => ?_⟩
  · exact hturn.sane
  · obtain ⟨b, hb⟩ := h.tidy n
    exact Turn.tidy hturn (released_mono h.wf hs n) hb

/-- Nothing has been asked for when the daemon starts. -/
lemma accounted_adbMain {config : Config} {fds : List ℕ} {inUse : ℕ → Bool}
    (h : adbMain config fds inUse = .ok D) : Accounted D := by
  have hwf := wf_adbMain h
  have hsane := sane_adbMain h
  obtain ⟨L, O, I, rfl⟩ := adbMain_eq h
  refine ⟨hwf, hsane, fun n => ⟨0, ?_⟩⟩
  constructor
  · rfl
  · rfl
  · rfl

lemma Accounted.run {es : List Event} (h : Accounted D) (hrun : run Daemon.step es D = .ok D') :
    Accounted D' :=
  run_invariant (C := fun _ _ => True) (fun _ _ _ h _ hs => h.step hs) h along_true hrun

lemma accounted_of_reachable (h : Reachable D) : Accounted D := by
  obtain ⟨config, fds, inUse, D₀, es, hmain, hrun⟩ := h
  exact (accounted_adbMain hmain).run hrun

/-- In every reachable state a packet is in one place at most: in the queue of a socket, in the
pair of a transport in either direction, or released.  One that has been handed on has been handed
on once, and is in no queue of a socket and not on its way to the main loop. -/
theorem once_of_reachable (h : Reachable D) (n : ℕ) :
    D.linked n + D.incoming n + D.outgoing n + D.released n ≤ 1 ∧
      D.linked n + D.incoming n + D.handedOn n ≤ 1 := by
  obtain ⟨b, haccount, hhanded, hreleased⟩ := (accounted_of_reachable h).tidy n
  rw [Daemon.account] at haccount
  omega

/-- A packet the main loop has been given stays in one place as long as no write fails that would
have it forgotten. -/
theorem inOnePlace_of_given {es : List Event} (h : ReachableBy Keeps D) (hk : Keeps e D)
    (hs : D.step e = .ok D₁) (hg : Given e D D₁ n) (hes : Along Daemon.step Keeps es D₁)
    (hrun : run Daemon.step es D₁ = .ok D') : InOnePlace n D' := by
  have hD := accounted_of_reachable h.reachable
  obtain ⟨b, hb⟩ := hD.tidy n
  have hstart := Given.settled hg hD.wf hD.sane hs hk (released_mono hD.wf hs n) hb
  have hkept : ∀ e D D', (Accounted D ∧ (∃ b, Settled n b D) ∧ n < D.nextPacket) → Keeps e D →
      D.step e = .ok D' → Accounted D' ∧ (∃ b, Settled n b D') ∧ n < D'.nextPacket := by
    rintro e D D' ⟨hacc, ⟨b, hb⟩, hused⟩ hk hs
    have hturn := Outcome.success (step_turn hacc.wf hacc.sane) hs
    exact ⟨hacc.step hs, Turn.settled hturn hk (fun _ => hused) (released_mono hacc.wf hs n) hb,
      hused.trans_le hturn.next⟩
  obtain ⟨-, ⟨b', hb'⟩, hused⟩ := run_invariant hkept ⟨hD.step hs, hstart⟩ hes hrun
  exact hb'.inOnePlace hused

/-! ## A shell that is gone -/

/-- A host opens a shell and sends it an `A_WRTE`, which is packet 5. -/
def writeShell : List Event :=
  openShell ++ [⟨.output 0, { packet := some (packetOf aWrte 7 1 [104]) }⟩,
    ⟨.epollWait [(11, ⟨true, false, false⟩)], {}⟩]

/-- The next step, whose writes have the results `ws`. -/
def handOver (ws : List Syscall.WriteResult) : Event := ⟨.dispatch, { writes := ws }⟩

/-- Whether the next step hands packet 5 over, and where the packet is then. -/
def fate (ws : List Syscall.WriteResult) (D : Daemon) : Bool × Option (ℕ × ℕ × ℕ) :=
  (D.delivered (handOver ws) = some (.transport 0, fdeRead, []) &&
    (D.transports 0).any fun x =>
      x.toMain.map (·.addr) = [5] && D.holds x.transportSocket (.transportSocket 0),
    (D.step (handOver ws)).toOption.map fun D => (D.linked 5, D.released 5, D.handedOn 5))

lemma exists_step {ws : List Syscall.WriteResult} {places : ℕ × ℕ × ℕ}
    (h : fate ws D = (true, some places)) : ∃ D₁, D.step (handOver ws) = .ok D₁ ∧
      Given (handOver ws) D D₁ 5 ∧ (D₁.linked 5, D₁.released 5, D₁.handedOn 5) = places := by
  obtain ⟨hhanded, hplaces⟩ := Prod.mk.inj h
  rw [Bool.and_eq_true, decide_eq_true_iff] at hhanded
  obtain ⟨hdelivered, hany⟩ := hhanded
  obtain ⟨x, hx, hqueue⟩ := (Option.any_eq_true _ _).mp hany
  rw [Bool.and_eq_true, decide_eq_true_iff] at hqueue
  obtain ⟨p, rest, hp, haddr, -⟩ := List.map_eq_cons_iff.mp hqueue.1
  obtain ⟨D₁, hs, hcount⟩ := Option.map_eq_some_iff.mp hplaces
  refine ⟨D₁, ?_, Or.inl ⟨0, p, ⟨fdeRead, [], x, rest, hdelivered, ?_⟩, haddr⟩, hcount⟩
  · cases hstep : D.step (handOver ws) with
    | error r =>
      rw [hstep] at hs
      cases hs
    | ok D₂ =>
      rw [hstep] at hs
      exact congrArg _ (Option.some.inj hs)
  · exact ⟨rfl, by decide, hx, hqueue.2, hp⟩

/-- The write fails, and the packet is nowhere. -/
theorem not_inOnePlace_gone : ∃ D e D₁, Reachable D ∧ D.step e = .ok D₁ ∧ Given e D D₁ 5 ∧
    ¬InOnePlace 5 D₁ := by
  obtain ⟨D, hD, hrun⟩ := @exists_reachable _ unlocked [3, 4, 6, 7, 8, 9] (fun _ => false)
    writeShell (fate [.fail]) (true, some (0, 0, 0)) (by decide +kernel)
  obtain ⟨D₁, hs, hgiven, hcount⟩ := exists_step hrun
  obtain ⟨hlinked, hrest⟩ := Prod.mk.inj hcount
  obtain ⟨hreleased, hhanded⟩ := Prod.mk.inj hrest
  refine ⟨D, handOver [.fail], D₁, hD, hs, hgiven, ?_⟩
  rw [InOnePlace]
  omega

/-- A step without failing writes forgets nothing. -/
lemma keeps_of_writes (h : e.io.writes = []) : Keeps e D := by
  rintro t p - ⟨-, -, a, s, -, -, -, -, hfail⟩
  rw [h] at hfail
  cases hp : p.payload with
  | nil =>
    rw [hp] at hfail
    cases hfail
  | cons b bs =>
    rw [hp] at hfail
    cases hfail

/-- The theorem where the shell does not read, and the packet waits for it. -/
theorem inOnePlace_of_given_waiting : ∃ D D₁, ReachableBy Keeps D ∧
    D.step (handOver []) = .ok D₁ ∧ InOnePlace 5 D₁ := by
  obtain ⟨D, hD, hrun⟩ := @exists_reachableBy Keeps _ unlocked [3, 4, 6, 7, 8, 9] (fun _ => false)
    writeShell (fun e _ => e.io.writes = []) (fate []) (true, some (1, 0, 0))
    (fun e D _ h => keeps_of_writes (decide_eq_true_iff.mp h)) (by decide +kernel)
  obtain ⟨D₁, hs, hgiven, -⟩ := exists_step hrun
  refine ⟨D, D₁, hD, hs, ?_⟩
  have hnone : Along Daemon.step Keeps [] D₁ := trivial
  exact inOnePlace_of_given hD (keeps_of_writes rfl) hs hgiven hnone rfl

/-- That a packet is in one place, for the same packet: it is linked, so it is nowhere else. -/
theorem once_of_reachable_waiting : ∃ D, Reachable D ∧ D.linked 5 = 1 ∧
    D.linked 5 + D.incoming 5 + D.outgoing 5 + D.released 5 ≤ 1 ∧
      D.linked 5 + D.incoming 5 + D.handedOn 5 ≤ 1 := by
  obtain ⟨D, hD, hlinked⟩ := @exists_reachable ℕ unlocked [3, 4, 6, 7, 8, 9] (fun _ => false)
    (writeShell ++ [handOver []]) (fun D => D.linked 5) 1 (by decide +kernel)
  exact ⟨D, hD, hlinked, once_of_reachable hD 5⟩

end Adbd.Ownership
