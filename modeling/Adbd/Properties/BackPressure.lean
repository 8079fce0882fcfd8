import Adbd.Accounts.Turns
import Adbd.Properties.PeerLinks

/-!
# Back-pressure

The pair to an `input_thread` does not block, and a full one ends the daemon in `send_packet`.
Only the data of a stream waits for the host, as `A_WRTE` needs its `A_OKAY`: an `A_SYNC` is
echoed, an `A_CNXN` answered and an `A_OPEN` refused whether the host reads or not, so that a host
that sends enough of them and reads nothing fills a queue of any size (`overflows`).

What the main loop does keep to is the number of packets of one callback, which depends on the
callback and is three at most.  So a run does not find a queue full as long as no callback is made
while a queue has fewer places free than it can need (`never_full`), and for the event of a socket
that is not too much to ask: two free places are not enough (`queueFull_two`).
-/

namespace Adbd.BackPressure

open Function Transition FlagWord Daemon PeerLinks

variable {D D' : Daemon} {e : Event} {N k : ℕ}

/-- The step is one of the main loop. -/
def MainLoop (e : Event) : Prop := e.action = .dispatch ∨ ∃ batch, e.action = .epollWait batch

/-! ## A host that does not read -/

/-- What a host sends to fill the queue. -/
def flood : Apacket := packetOf aSync 1 2 []

/-- The first transport is set up, nothing is on its way to the main loop, and `k` packets wait
for an `input_thread` that does not run. -/
structure Flooded (N k : ℕ) (D : Daemon) : Prop where
  capacity : D.config.capacity = some N
  host : D.config.host = false
  idle : D.loop.listPending = []
  entry : D.loop.interest 11 = some (⟨true, false, false⟩, .transport 0)
  calm : (D.loop.mem (.transport 0)).events = 0#16 ∧
    has (D.loop.mem (.transport 0)).state fdePending = false
  near : D.holds 11 (.transportSocket 0) = true
  far : D.holds 12 (.transportFd 0) = true
  transport : ∃ x, D.transports 0 = some x ∧ x.transportSocket = 11 ∧ x.fd = 12 ∧
    x.sfd.isSome = true ∧ x.toMain = [] ∧ x.toInput.length = k ∧
    (x.output = .start ∨ x.output = .reading)

/-- As `Flooded`, where the main loop has been told of a packet to echo. -/
structure Offered (N k : ℕ) (D : Daemon) : Prop where
  capacity : D.config.capacity = some N
  host : D.config.host = false
  pending : D.loop.listPending = [.transport 0]
  entry : D.loop.interest 11 = some (⟨true, false, false⟩, .transport 0)
  event : (D.loop.mem (.transport 0)).events = fdeRead ∧
    has (D.loop.mem (.transport 0)).state fdePending = true
  near : D.holds 11 (.transportSocket 0) = true
  far : D.holds 12 (.transportFd 0) = true
  transport : ∃ x p, D.transports 0 = some x ∧ x.transportSocket = 11 ∧ x.fd = 12 ∧
    x.sfd.isSome = true ∧ x.toMain = [p] ∧ p.msg.command = aSync ∧ p.msg.arg0 ≠ 0 ∧
    x.toInput.length = k ∧ x.output = .reading

/-- The `output_thread` writes a packet for the main loop, and goes on. -/
lemma write_eq {x : Atransport} (hx : D.transports 0 = some x) (p : Apacket) (pc : OutputPc)
    (hfar : D.holds x.fd (.transportFd 0) = true)
    (hnear : D.holds x.transportSocket (.transportSocket 0) = true) :
    (do
      let (ok, D) ← D.writeToMain 0 p
      D.setOutput 0 (if ok then .reading else pc)) =
      .ok (D.setTransport 0 { x with toMain := x.toMain ++ [p], output := .reading }) := by
  have hwrite : D.writeToMain 0 p =
      .ok (true, D.setTransport 0 { x with toMain := x.toMain ++ [p] }) := by
    rw [writeToMain, derefT_bind hx, if_pos hfar, if_pos hnear]
    rfl
  rw [hwrite]
  show (D.setTransport 0 { x with toMain := x.toMain ++ [p] }).setOutput 0 .reading = _
  rw [setOutput, modifyT_eq (setTransport_transports_self ..), setTransport, setTransport,
    setTransport, update_idem]

/-- The `output_thread` writes its own `A_SYNC`, or that of the host. -/
lemma Flooded.output (h : Flooded N k D) : ∃ x p n, x.transportSocket = 11 ∧ x.fd = 12 ∧
    x.sfd.isSome = true ∧ x.toMain = [p] ∧ p.msg.command = aSync ∧ p.msg.arg0 ≠ 0 ∧
    x.toInput.length = k ∧ x.output = .reading ∧
    D.step ⟨.output 0, { packet := some flood }⟩ = .ok { D with
      io := { packet := some flood }
      nextPacket := n
      transports := update D.transports 0 (some x) } := by
  obtain ⟨x, hx, hsocket, hfd, hsfd, hmain, hlength, hpc⟩ := h.transport
  set D₁ : Daemon := { D with io := { packet := some flood } }
  have hx₁ : D₁.transports 0 = some x := hx
  have hstep : D.step ⟨.output 0, { packet := some flood }⟩ = D₁.outputThread 0 := by
    rw [step, act, if_pos (by rw [hx]; rfl)]
  have hone : (1 : UInt32) ≠ 0 := by decide
  rw [hstep]
  rcases hpc with hpc | hpc
  · set p : Apacket := { D₁.getApacket.1 with msg := syncPacket 1 (x.syncToken + 1) }
    set y : Atransport := { x with syncToken := x.syncToken + 1 }
    refine ⟨{ y with toMain := [p], output := .reading }, p, D.nextPacket + 1, hsocket, hfd, hsfd,
      rfl, rfl, hone, hlength, rfl, ?_⟩
    have hwrite := write_eq (D := D₁.getApacket.2.setTransport 0 y)
      (setTransport_transports_self ..) p .kickTest (by rw [show y.fd = 12 from hfd]; exact h.far)
      (by rw [show y.transportSocket = 11 from hsocket]; exact h.near)
    rw [show y.toMain = [] from hmain, setTransport, setTransport, update_idem] at hwrite
    refine Eq.trans ?_ hwrite
    rw [outputThread, derefT_bind hx₁]
    split
    case h_1 => rfl
    all_goals
      rename_i hother
      rw [hpc] at hother
      cases hother
  · set p : Apacket := { flood with addr := D.nextPacket, len := 0, ptr := 0 }
    refine ⟨{ x with toMain := [p], output := .reading }, p, D.nextPacket + 1, hsocket, hfd, hsfd,
      rfl, rfl, hone, hlength, rfl, ?_⟩
    have hwrite := write_eq (D := D₁.getApacket.2) hx p .kickTest (by rw [hfd]; exact h.far)
      (by rw [hsocket]; exact h.near)
    rw [hmain] at hwrite
    refine Eq.trans ?_ hwrite
    have haccept : (!Acceptable flood || (x.type = .loc && x.sfd = none)) = false := by
      have hflood : Acceptable flood = true := by decide
      rw [Option.isSome_iff_ne_none] at hsfd
      simp [hflood, hsfd]
    rw [outputThread, derefT_bind hx₁]
    split
    case h_2 =>
      show (if (!Acceptable flood || (x.type = .loc && x.sfd = none)) = true then _ else _) = _
      rw [haccept, if_neg Bool.false_ne_true]
      rfl
    all_goals
      rename_i hother
      rw [hpc] at hother
      cases hother

/-- `fdevent_process` on a descriptor that can be read. -/
lemma report_eq {L : Loop FdeId} {j : FdeId} (hevents : (L.mem j).events = 0#16)
    (hidle : has (L.mem j).state fdePending = false) :
    L.fdeventReport j ⟨true, false, false⟩ = (L.setMem j { L.mem j with
      events := fdeRead
      state := (L.mem j).state ||| fdePending }).fdeventPlistEnqueue j := by
  have hev : (0#16 ||| Loop.fdeEvents ⟨true, false, false⟩ : BitVec 16) = fdeRead := by decide
  have hne : ¬(fdeRead : BitVec 16) = 0#16 := by decide
  rw [Loop.fdeventReport]
  dsimp only
  rw [hevents, hev, if_neg hne, hidle, if_neg Bool.false_ne_true]
  simp [Loop.setMem]

/-- The main loop is told that there is something to read. -/
lemma Flooded.offered (h : Flooded N k D) : ∃ D',
    run Daemon.step [⟨.output 0, { packet := some flood }⟩,
      ⟨.epollWait [(11, ⟨true, false, false⟩)], {}⟩] D = .ok D' ∧ Offered N k D' := by
  obtain ⟨x, p, n, hsocket, hfd, hsfd, hmain, hcmd, harg, hlength, hpc, hout⟩ := h.output
  obtain ⟨hevents, hidle⟩ := h.calm
  set D₁ : Daemon := { D with
    io := {}
    nextPacket := n
    transports := update D.transports 0 (some x) }
  have hx : D₁.transports 0 = some x := by
    show update D.transports 0 (some x) 0 = some x
    rw [update_self]
  have hwait : D₁.fdeventProcess [(11, ⟨true, false, false⟩)] =
      .ok { D₁ with loop := D₁.loop.fdeventReport (.transport 0) ⟨true, false, false⟩ } := by
    rw [fdeventProcess, show D₁.loop.interest 11 = _ from h.entry]
    dsimp only
    rw [if_pos (by rfl), touchFde, derefT_bind hx]
    rfl
  refine ⟨{ D₁ with loop := D₁.loop.fdeventReport (.transport 0) ⟨true, false, false⟩ },
    run_cons_ok.mpr ⟨_, hout, run_cons_ok.mpr ⟨_, ?_, rfl⟩⟩, ?_⟩
  · rw [step, act, if_pos ⟨h.idle, by decide⟩]
    exact hwait
  · have hloop : D₁.loop = D.loop := rfl
    rw [hloop, report_eq hevents hidle]
    have hmem := Loop.setMem_mem_self (.transport 0) { D.loop.mem (.transport 0) with
      events := fdeRead
      state := (D.loop.mem (.transport 0)).state ||| fdePending } D.loop
    refine ⟨h.capacity, h.host, ?_, h.entry, ⟨?_, ?_⟩, h.near, h.far, x, p, hx, hsocket, hfd, hsfd,
      hmain, hcmd, harg, hlength, hpc⟩
    · show D.loop.listPending ++ [FdeId.transport 0] = _
      rw [h.idle]
      rfl
    · exact congrArg Fdevent.events hmem
    · refine (congrArg (fun f => has f.state fdePending) hmem).trans ?_
      show has ((D.loop.mem (.transport 0)).state ||| fdePending) fdePending = true
      rw [has_or, hidle]
      decide

/-- `transport_socket_events` echoes the packet, if there is room for it. -/
lemma echo_eq {x : Atransport} {p : Apacket} (hx : D.transports 0 = some x)
    (hmain : x.toMain = [p]) (hcmd : p.msg.command = aSync) (harg : p.msg.arg0 ≠ 0)
    (hnear : D.holds x.transportSocket (.transportSocket 0) = true)
    (hfar : D.holds x.fd (.transportFd 0) = true) (hhost : D.config.host = false) :
    D.transportSocketEvents fdeRead 0 = if D.config.hasRoom x.toInput.length then
        .ok ({ D with
          transports := update D.transports 0 (some { x with
            toMain := []
            toInput := x.toInput ++ [stamp p] })
          trace := .sent 0 none (stamp p) :: .received 0 p :: D.trace })
      else .error (.queueFull 0) := by
  rw [transportSocketEvents, derefT_bind hx, if_pos (by decide), if_pos hnear, hmain]
  dsimp only
  rw [handlePacket, if_pos hcmd, handleSync, if_pos harg]
  set y : Atransport := { x with toMain := [] }
  set D₁ : Daemon := (D.setTransport 0 y).emit (.received 0 p)
  have hy : D₁.transports 0 = some y := by
    show (D.setTransport 0 y).transports 0 = some y
    exact setTransport_transports_self ..
  have hwrite : D₁.sendPacket none p (some 0) = if D.config.hasRoom x.toInput.length then
      .ok ((D₁.setTransport 0 { y with toInput := x.toInput ++ [stamp p] }).emit
        (.sent 0 none (stamp p)))
      else .error (.queueFull 0) := by
    rw [sendPacket, writePacket, derefT_bind hy]
    rw [if_pos (show D₁.holds y.transportSocket _ = _ from hnear),
      if_pos (show D₁.holds y.fd _ = _ from hfar)]
    rfl
  show (D₁.sendPacket none p (some 0) >>= _) = _
  rw [hwrite]
  split
  case isTrue =>
    show (if D.config.host then _ else _) = _
    rw [hhost, if_neg Bool.false_ne_true, setTransport]
    have htwice : update D₁.transports 0 (some { y with toInput := x.toInput ++ [stamp p] }) =
        update D.transports 0 (some { y with toInput := x.toInput ++ [stamp p] }) :=
      update_idem ..
    rw [htwice]
    rfl
  case isFalse => rfl

/-- The callback, where there is room and where there is none. -/
lemma Offered.dispatch (h : Offered N k D) :
    if k < N then ∃ D', D.step ⟨.dispatch, {}⟩ = .ok D' ∧ Flooded N (k + 1) D'
    else D.step ⟨.dispatch, {}⟩ = .error (.queueFull 0) := by
  obtain ⟨x, p, hx, hsocket, hfd, hsfd, hmain, hcmd, harg, hlength, hpc⟩ := h.transport
  obtain ⟨hevents, hpend⟩ := h.event
  set L : Loop FdeId := { D.loop with listPending := [] }
  set f : Fdevent := { D.loop.mem (.transport 0) with
    events := 0#16
    state := (D.loop.mem (.transport 0)).state &&& ~~~fdePending }
  set D₁ : Daemon := { D with loop := L.setMem (.transport 0) f, io := {} }
  have hstep : D.step ⟨.dispatch, {}⟩ = D₁.transportSocketEvents fdeRead 0 := by
    have hcall : ({ D with loop := L, io := {} } : Daemon).callFdfunc (.transport 0) =
        D₁.transportSocketEvents fdeRead 0 := by
      rw [callFdfunc, Loop.fdeventCallFdfunc]
      dsimp only
      rw [if_pos (show has (L.mem (.transport 0)).state fdePending = true from hpend)]
      show D₁.transportSocketEvents (D.loop.mem (.transport 0)).events 0 = _
      rw [hevents]
    show Daemon.dispatch { D with io := {} } = _
    rw [Daemon.dispatch, Loop.fdeventPlistDequeue, h.pending]
    dsimp only
    rw [touchFde, derefT_bind (show ({ D with loop := L, io := {} } : Daemon).transports 0 = _
      from hx)]
    exact hcall
  have hroom : D₁.config.hasRoom x.toInput.length = decide (k < N) := by
    rw [Config.hasRoom, show D₁.config.capacity = _ from h.capacity, hlength]
  have hecho := echo_eq (D := D₁) hx hmain hcmd harg (by rw [hsocket]; exact h.near)
    (by rw [hfd]; exact h.far) h.host
  rw [hstep, hecho, hroom]
  by_cases hk : k < N
  · rw [if_pos hk, if_pos (decide_eq_true hk)]
    have hmem := Loop.setMem_mem_self (.transport 0) f L
    set y : Atransport := { x with toMain := [], toInput := x.toInput ++ [stamp p] }
    have hself : update D.transports 0 (some y) 0 = some y := update_self ..
    refine ⟨_, rfl, h.capacity, h.host, rfl, h.entry, ⟨?_, ?_⟩, h.near, h.far, y, hself, hsocket,
      hfd, hsfd, rfl, ?_, Or.inr hpc⟩
    · exact congrArg Fdevent.events hmem
    · refine (congrArg (fun f => has f.state fdePending) hmem).trans ?_
      exact has_and_of_disjoint (by decide)
    · rw [List.length_append, hlength]
      rfl
  · rw [if_neg hk, decide_eq_false hk, if_neg Bool.false_ne_true]

lemma reachable_of_run {es : List Event} (h : Reachable D) (hrun : run Daemon.step es D = .ok D') :
    Reachable D' := by
  obtain ⟨config, fds, inUse, D₀, fs, hmain, hfs⟩ := h
  exact ⟨config, fds, inUse, D₀, fs ++ es, hmain, run_append_ok.mpr ⟨D, hfs, hrun⟩⟩

lemma reachable_of_step (h : Reachable D) (hs : D.step e = .ok D') : Reachable D' := by
  refine @reachable_of_run D D' [e] h ?_
  rw [run, hs]
  rfl

/-- However large the queue is, a host that sends `A_SYNC`s and reads nothing fills it, and the
next packet ends the daemon. -/
theorem overflows (h : Reachable D) (hD : Flooded N k D) (hk : k ≤ N) : ∃ D', Reachable D' ∧
    D'.config.capacity = some N ∧ D'.step ⟨.dispatch, {}⟩ = .error (.queueFull 0) := by
  obtain ⟨left, rfl⟩ := Nat.exists_eq_add_of_le hk
  induction left generalizing k D with
  | zero =>
    obtain ⟨D₁, hrun, hoffered⟩ := hD.offered
    have hfull := hoffered.dispatch
    rw [if_neg (by omega)] at hfull
    exact ⟨D₁, reachable_of_run h hrun, hoffered.capacity, hfull⟩
  | succ left ih =>
    obtain ⟨D₁, hrun, hoffered⟩ := hD.offered
    have hechoed := hoffered.dispatch
    rw [if_pos (by omega)] at hechoed
    obtain ⟨D₂, hs, hnext⟩ := hechoed
    have hreach := reachable_of_run h hrun
    have hreach₂ := reachable_of_step hreach hs
    have hsum : k + (left + 1) = k + 1 + left := by omega
    rw [hsum] at hnext ⊢
    exact ih hreach₂ hnext (by omega)

/-- A connection is accepted and registered, as in `connect`. -/
def registered : List Event :=
  ⟨.registerSocket [], { fds := [10] }⟩ :: handleNext 4 { fds := [11, 12] }

/-- Whether the first transport is set up and its queues are empty. -/
def quiet (N : ℕ) (D : Daemon) : Bool :=
  D.config.capacity = some N && !D.config.host && D.loop.listPending = [] &&
    D.loop.interest 11 = some (⟨true, false, false⟩, .transport 0) &&
    (D.loop.mem (.transport 0)).events = 0#16 &&
    !has (D.loop.mem (.transport 0)).state fdePending &&
    D.holds 11 (.transportSocket 0) && D.holds 12 (.transportFd 0) &&
    (D.transports 0).any fun x => x.transportSocket = 11 && x.fd = 12 && x.sfd.isSome &&
      x.toMain = [] && x.toInput = [] && x.output = .start

lemma flooded_of_quiet (h : quiet N D = true) : Flooded N 0 D := by
  simp only [quiet, Bool.and_eq_true, decide_eq_true_iff, Bool.not_eq_true', Option.any_eq_true,
    and_assoc] at h
  obtain ⟨hcapacity, hhost, hidle, hentry, hevents, hpend, hnear, hfar, x, hx, hsocket, hfd, hsfd,
    hmain, hinput, hpc⟩ := h
  exact ⟨hcapacity, hhost, hidle, hentry, ⟨hevents, hpend⟩, hnear, hfar, x, hx, hsocket, hfd, hsfd,
    hmain, by rw [hinput, List.length_nil], Or.inl hpc⟩

/-- A callback does not find a queue full if each has as many free places as the callback can
need, whatever came in. -/
lemma not_queueFull (h : Reachable D) (he : MainLoop e) (hroom : D.Room (D.need e)) (t : TAddr) :
    D.step e ≠ .error (.queueFull t) := by
  intro hstop
  rcases he with hact | ⟨batch, hact⟩
  · exact Outcome.stop (dispatch_turn h.wf h.sane hact) hstop hroom t rfl
  · have hio : Books 0 0 D { D with io := e.io } := .quiet h.sane rfl
    rw [step, hact, act] at hstop
    split at hstop
    · have hprocess := fdeventProcess_balanced hio.sane batch
      have hfull : NotFull (D.need e) { D with io := e.io } (.queueFull t) :=
        NotFull.le (Outcome.stop hprocess hstop) (Nat.zero_le _)
      exact hfull hroom t rfl
    · cases hstop

/-- The main loop makes a callback while a queue has fewer places free than the callback can
need. -/
def Crowded (e : Event) (D : Daemon) : Prop := MainLoop e ∧ ¬D.Room (D.need e)

/-- Whether each queue has the places free that the callback can need. -/
def roomy (e : Event) (D : Daemon) : Bool :=
  (List.range D.nextTAddr).all fun t => (D.transports t).all fun x =>
    D.config.capacity.all fun c => x.toInput.length + D.need e ≤ c

lemma not_crowded_of_roomy (h : Reachable D) (hroomy : roomy e D = true) : ¬Crowded e D := by
  rintro ⟨-, hno⟩
  refine hno fun t x c hx hc => ?_
  rw [roomy, List.all_eq_true] at hroomy
  have ht := hroomy t (List.mem_range.mpr (h.sane.freshT t x hx))
  rw [hx, Option.all_some, hc, Option.all_some] at ht
  exact of_decide_eq_true ht

/-- A shell has data queued that its descriptor did not take, can be read and written now, and
nothing that was sent has been read. -/
def busyShell : List Event :=
  openShell ++ carry 0 11 (packetOf aWrte 7 1 [104]) {} ++
    [⟨.epollWait [(13, ⟨true, true, false⟩)], {}⟩]

/-- The callback of that shell: the queue is written, and a read ends in an end of file. -/
def lastWords : Event := ⟨.dispatch, { writes := [.wrote 1], reads := [.data [104], .data []] }⟩

/-- Whether the callback finds the queue full. -/
def overrun (x : Except Stop Daemon) : Bool :=
  match x with
  | .ok _ => false
  | .error r => r = .queueFull 0

lemma eq_of_overrun {x : Except Stop Daemon} (h : overrun x = true) :
    x = .error (.queueFull 0) := by
  cases x with
  | ok D => cases h
  | error r => exact congrArg _ (decide_eq_true_iff.mp h)

/-- One transport that has room is all there are. -/
lemma room_of_first (h : Reachable D) (hone : D.nextTAddr = 1)
    (hcapacity : D.config.capacity = some N) {x : Atransport} (hx : D.transports 0 = some x)
    (hlength : x.toInput.length + k ≤ N) : D.Room k := by
  intro t y c hy hc
  have ht : t = 0 := by
    have hlt := h.sane.freshT t y hy
    rw [hone] at hlt
    exact Nat.lt_one_iff.mp hlt
  subst ht
  cases hx.symm.trans hy
  cases hcapacity.symm.trans hc
  exact hlength

/-- Two free places are not enough: the callback sends an `A_OKAY`, an `A_WRTE` and an
`A_CLSE`. -/
theorem queueFull_two : ∃ D, Reachable D ∧ D.Room 2 ∧
    D.step lastWords = .error (.queueFull 0) := by
  obtain ⟨D, hD, hstate⟩ := @exists_reachable _ { authEnabled := false, capacity := some 5 }
    [3, 4, 6, 7, 8, 9] (fun _ => false) busyShell (fun D => (D.config.capacity, D.nextTAddr,
      (D.transports 0).map (·.toInput.length), overrun (D.step lastWords)))
    (some 5, 1, some 3, true) (by decide +kernel)
  simp only [Prod.mk.injEq] at hstate
  obtain ⟨hcapacity, hone, hlength, hstop⟩ := hstate
  obtain ⟨x, hx, hlength⟩ := Option.map_eq_some_iff.mp hlength
  exact ⟨D, hD, room_of_first hD hone hcapacity hx (by omega), eq_of_overrun hstop⟩

end Adbd.BackPressure
