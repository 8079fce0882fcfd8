import Adbd.Confinement.Packet
import Adbd.Effects.Step

/-!
# Confinement: steps

A step works on the sockets that the callback it makes, the packet it hands on, the transport it
removes or the thread that closes everything is about.

A thread of a transport changes no socket, unless it is an `input_thread` at `close_all_sockets`.
Registering a transport changes none either, and removing one drains its list of disconnects.  The
event loop itself only sets and clears the pending flags, which `watches` leaves out, and calls one
function; for the exit of a shell it calls that of the shell's socket out of turn, through
`fd_table`.  `Serves` collects what a callback needs to be in the set and `Covers` what a whole
step does, and `step_stays` puts the cases together.
-/

namespace Adbd

open Function Transition Footprint FlagWord

namespace Daemon

variable {A : Set Addr} {D D' : Daemon} {a b : Addr} {t : TAddr} {x y : Atransport}
  {p : Apacket} {k : FdeId} {ev : BitVec 16} {e : Event} {L : Loop FdeId} {n : ℕ}

/-! ## Threads -/

lemma ofThread_concerns {o : Obs} (h : o.ofThread t) (b : Addr) : ¬o.Concerns b := by
  cases o <;> first | exact id | cases h

/-- What a step of a thread leaves. -/
lemma Within.threadResult (h : Contained A D) (hx : D.transports t = some x)
    (hmem : L.mem = D.loop.mem) (hy : y.disconnects = x.disconnects) {os : List Obs}
    (hos : ∀ o ∈ os, o.ofThread t) (R : List (TAddr × RegAction)) (n : ℕ) :
    Within A D (D.threadResult t y L R os n) := by
  have hput := Within.setTransport (y := y) h hx fun r hr _ => hy ▸ hr
  refine ⟨fun b hb => ⟨rfl, ?_, os, rfl, fun o ho => ofThread_concerns (hos o ho) b⟩,
    ⟨h.sealed, h.fresh⟩, hput.records⟩
  rw [watches, watches]
  show ((L.mem _).fd, (L.mem _).state &&& _) = _
  rw [hmem]

/-- `output_thread`. -/
lemma outputThread_stays (h : Contained A D) (t : TAddr) :
    Stays A (fun D => D) D (D.outputThread t) := by
  cases hx : D.transports t with
  | none =>
    rw [outputThread, derefT, hx]
    trivial
  | some x =>
    cases hres : D.outputThread t with
    | error r => trivial
    | ok D' =>
      obtain ⟨y, L, R, os, n, hstep, rfl⟩ := outputThread_ok hx hres
      have hmem : L.mem = D.loop.mem :=
        hstep.closes (P := fun L => L.mem = D.loop.mem) (fun _ _ hL => hL) rfl
      exact .threadResult h hx hmem (by rw [hstep.frame]) (fun o => hstep.ofThread) R n

/-- `input_thread`, which closes the sockets of its transport in the end. -/
lemma inputThread_stays (h : Contained A D) (hclose : ∀ x, D.transports t = some x →
    x.input = .closeAll → ∀ b, D.boundTo t b = true → b ∈ A) :
    Stays A (fun D => D) D (D.inputThread t) := by
  cases hx : D.transports t with
  | none =>
    rw [inputThread, derefT, hx]
    trivial
  | some x =>
    by_cases hpc : x.input = .closeAll
    · rw [inputThread, derefT_bind hx, hpc]
      exact (closeAllSockets_stays h (hclose x hx hpc)).seq fun D₁ _ h₁ =>
        modifyT_stays h₁.contained fun _ => rfl
    · cases hres : D.inputThread t with
      | error r => trivial
      | ok D' =>
        obtain ⟨y, L, R, os, hstep, rfl⟩ := inputThread_ok hx hpc hres
        have hmem : L.mem = D.loop.mem :=
          hstep.closes (P := fun L => L.mem = D.loop.mem) (fun _ _ hL => hL) rfl
        exact .threadResult h hx hmem (by rw [hstep.frame]) (fun o => hstep.ofThread) R _

/-! ## Registration -/

lemma registerTransport_within (h : Contained A D) (hx : x.disconnects = []) :
    Within A D (D.registerTransport x) := by
  have hemit := Within.emit (o := .registered D.nextTAddr x.type) h fun _ _ hno => hno
  have hput := hemit.trans (.putTransport (o := some x) hemit.contained D.nextTAddr (by
    rintro z ⟨⟩
    exact hx))
  exact hput.trans (.aside hput.contained rfl rfl rfl rfl rfl)

lemma registerSocketTransport_stays (h : Contained A D) (serial : List UInt8) :
    Stays A (fun D => D) D (D.registerSocketTransport serial) := by
  rw [registerSocketTransport]
  refine (takeFd_stays h _).seq fun y _ h₁ => ?_
  obtain ⟨fd, D₁⟩ := y
  dsimp only at h₁ ⊢
  cases fd with
  | none => trivial
  | some n => exact .ok (registerTransport_within h₁.contained rfl)

/-- `adb_socketpair` for a transport. -/
lemma transportSocketpair_stays (h : Contained A D) (t : TAddr) :
    Ensures (D.transportSocketpair t) fun y => Within A D y.2 ∧ y.2.transports = D.transports := by
  rw [transportSocketpair]
  refine Outcome.bind (takeFd_stays h _) fun y hy h₁ => ?_
  refine Outcome.bind (takeFd_stays h₁.contained _) fun z hz h₂ => ?_
  obtain ⟨near, D₁⟩ := y
  obtain ⟨far, D₂⟩ := z
  obtain ⟨L, O, I, hD₂⟩ := (takeFd_onlyLoop hy).trans (takeFd_onlyLoop hz)
  dsimp only at h₁ h₂ ⊢
  cases near with
  | none => trivial
  | some n =>
    cases far with
    | none => trivial
    | some m => exact ⟨h₁.trans h₂, by rw [hD₂]⟩

/-- `transport_registration_func`, action 1. -/
lemma startTransport_stays (h : Contained A D) (t : TAddr) :
    Stays A (fun D => D) D (D.startTransport t) := by
  rw [startTransport]
  refine .derefT fun x hx => ?_
  refine Stays.seq (g := fun D => D) ?_ fun D₁ _ h₁ => ?_
  · split
    case isFalse => exact .ok (.refl h)
    case isTrue =>
      refine Outcome.bind (transportSocketpair_stays h t) fun y _ hy => ?_
      obtain ⟨⟨n, m⟩, D₁⟩ := y
      obtain ⟨h₁, hT⟩ := hy
      dsimp only at h₁ hT ⊢
      have hx₁ : D₁.transports t = some x := hT ▸ hx
      have hput := Within.setTransport (y := { x with
        refCount := 2
        transportSocket := n
        fd := m
        input := .reading
        output := .start }) h₁.contained hx₁ fun _ hr _ => hr
      refine Stays.after (h₁.trans hput) ?_
      refine (fdeventInstall_stays hput.contained (by rintro b - ⟨⟩) n).seq fun D₂ _ h₂ => ?_
      exact fdeventSet_stays h₂.contained (by rintro b - ⟨⟩) _
  have hempty : Stays A (fun D => D) D₁ (D₁.modifyT t fun x => { x with disconnects := [] }) := by
    rw [modifyT]
    exact .derefT fun x hx => .ok (.setTransport h₁.contained hx fun r hr => by cases hr)
  exact hempty.seq fun D₂ _ h₂ => .ok (.aside h₂.contained rfl rfl rfl rfl rfl)

lemma shut_within (h : Contained A D) (d : Desc) (n : ℕ) : Within A D (D.shut d n) := by
  have hemit := Within.emit (o := .shut d n (D.holds n d)) h fun _ _ hno => hno
  exact hemit.trans (.aside hemit.contained rfl rfl rfl rfl rfl)

/-- The transport is taken off the list, and its streams are closed. -/
lemma dropTransport_stays (h : Contained A D) (hl : LinkedWithin A t D) :
    Stays A (fun D => D) D (do
      let D ← ({ D with transportList := D.transportList.erase t }).runTransportDisconnects t
      pure { D with transports := update D.transports t none }) := by
  have hlist : Within A D { D with transportList := D.transportList.erase t } :=
    .aside h rfl rfl rfl rfl rfl
  have hrun := runTransportDisconnects_stays hlist.contained (hlist.linkedWithin hl)
  refine .after hlist (hrun.seq fun D₁ _ h₁ => .ok ?_)
  exact .putTransport (o := none) h₁.contained t fun _ hno => by cases hno

/-- `transport_registration_func`, action 0. -/
lemma removeTransport_stays (h : Contained A D) (hl : LinkedWithin A t D) :
    Stays A (fun D => D) D (D.removeTransport t) := by
  rw [removeTransport]
  refine .derefT fun x _ => ?_
  have hshut : ∀ {D : Daemon}, Contained A D → ∀ o, (∀ b, ¬Obs.Concerns b o) →
      Within A D (if has (D.loop.mem (.transport t)).state fdeActive then D.emit o else D) := by
    intro D h o ho
    split
    · exact .emit h fun b _ => ho b
    · exact .refl h
  have h₀ := hshut h (.shut (.transportSocket t) (D.loop.mem (.transport t)).fd
    (D.holds (D.loop.mem (.transport t)).fd (.transportSocket t))) fun _ => id
  dsimp only
  generalize (if has (D.loop.mem (.transport t)).state fdeActive then D.emit _ else D) = D₀
    at h₀ ⊢
  refine .after h₀ ((fdeventRemove_stays h₀.contained (by rintro b - ⟨⟩)).seq fun D₁ _ h₁ => ?_)
  have h₂ := shut_within h₁.contained (.transportFd t) x.fd
  have hl₂ := h₂.linkedWithin (h₁.linkedWithin (h₀.linkedWithin hl))
  exact .after h₂ (dropTransport_stays h₂.contained hl₂)

/-- `transport_registration_func`. -/
lemma transportRegistrationFunc_stays (h : Contained A D)
    (hl : ∀ t rest, has ev fdeRead = true → D.registration = (t, .remove) :: rest →
      LinkedWithin A t D) : Stays A (fun D => D) D (D.transportRegistrationFunc ev) := by
  rw [transportRegistrationFunc]
  split
  case isFalse => exact .ok (.refl h)
  case isTrue hev =>
    have hfetch : ∀ rest t act, Within A D
        ({ D with registration := rest }.emit (.fetched t act)) := fun rest t act =>
      have htake : Within A D { D with registration := rest } := .aside h rfl rfl rfl rfl rfl
      htake.trans (.emit htake.contained fun _ _ hno => hno)
    split
    · trivial
    case h_2 t rest _ =>
      exact .after (hfetch rest t _) (startTransport_stays (hfetch rest t _).contained t)
    case h_3 t rest hreg =>
      have h₁ := hfetch rest t .remove
      exact .after h₁ (removeTransport_stays h₁.contained (h₁.linkedWithin (hl t rest hev hreg)))

/-! ## Callbacks -/

/-- A new process of `jdwp_control_event`. -/
lemma jdwpProcessAlloc_stays (h : Contained A D) (n : ℕ) :
    Stays A (fun D => D) D (D.jdwpProcessAlloc n) := by
  rw [jdwpProcessAlloc]
  have hkey : Inner A (.jdwpProcess D.nextAddr) := by rintro b - ⟨⟩
  have hnext : Within A D { D with nextAddr := D.nextAddr + 1 } :=
    ⟨fun b _ => .silent rfl rfl rfl, ⟨h.sealed, fun b hb => h.fresh b (Nat.le_of_succ_le hb)⟩,
      fun _ y hy _ hr _ => ⟨y, hy, hr⟩⟩
  refine .after hnext ?_
  refine (onLoop_stays hnext.contained hkey fun L hL j hj => ?_).seq fun D₁ _ h₁ => ?_
  · obtain ⟨T, M, rfl, -, -⟩ := Loop.fdeventCreate_ok hL
    exact Loop.setMem_mem_of_ne hj ..
  · set L : Loop FdeId := D₁.loop.setMem (.jdwpProcess D.nextAddr)
      { D₁.loop.mem (.jdwpProcess D.nextAddr) with
        state := (D₁.loop.mem (.jdwpProcess D.nextAddr)).state ||| fdeDontClose }
    have hflag : Within A D₁ { D₁ with loop := L } :=
      .loop h₁.contained fun b hb => watches_of_mem (Loop.setMem_mem_of_ne (hkey b hb) ..)
    have hlist : Within A { D₁ with loop := L } { D₁ with
        loop := L
        jdwpList := D₁.jdwpList ++ [{ addr := D.nextAddr, socket := n }] } :=
      .aside hflag.contained rfl rfl rfl rfl rfl
    exact .after (hflag.trans hlist) (fdeventAdd_stays hlist.contained hkey _)

lemma jdwpControlEvent_stays (h : Contained A D) (ev : BitVec 16) :
    Stays A (fun D => D) D (D.jdwpControlEvent ev) := by
  rw [jdwpControlEvent]
  split
  case isFalse => exact .ok (.refl h)
  case isTrue =>
    refine (takeFd_stays h _).seq fun y _ h₁ => ?_
    obtain ⟨fd, D₁⟩ := y
    dsimp only at h₁ ⊢
    cases fd with
    | none => exact .ok (.refl h₁.contained)
    | some n => exact jdwpProcessAlloc_stays h₁.contained n

/-- `transport_socket_events`. -/
lemma transportSocketEvents_stays (h : Contained A D) (haddr : ∀ x p rest,
    has ev fdeRead = true → D.transports t = some x → x.toMain = p :: rest →
      Addressed A t p D) : Stays A (fun D => D) D (D.transportSocketEvents ev t) := by
  rw [transportSocketEvents]
  refine .derefT fun x hx => ?_
  split
  case isFalse => exact .ok (.refl h)
  case isTrue hev =>
    split
    · split
      · exact .ok (.refl h)
      case h_2 p rest hqueue =>
        have hput := Within.setTransport (y := { x with toMain := rest }) h hx fun _ hr _ => hr
        have hp := haddr x p rest hev hx hqueue
        refine .after hput (handlePacket_stays hput.contained ⟨fun y a hy hon hcmd hfind => ?_,
          fun y hy hends r hr => ?_⟩)
        · cases (update_self ..).symm.trans hy
          exact hp.named x a hx hon hcmd hfind
        · cases (update_self ..).symm.trans hy
          exact hp.linked x hx hends r hr
    · split
      · trivial
      · exact .ok (.refl h)

/-- What the callback of `k` is for lies in `A`. -/
structure Serves (A : Set Addr) (k : FdeId) (ev : BitVec 16) (D : Daemon) : Prop where
  socket : ∀ a, k = .socket a → a ∈ A
  packet : ∀ t x p rest, k = .transport t → has ev fdeRead = true → D.transports t = some x →
    x.toMain = p :: rest → Addressed A t p D
  removed : ∀ t rest, k = .registration → has ev fdeRead = true →
    D.registration = (t, .remove) :: rest → LinkedWithin A t D

/-- A callback, in a state without a debuggable process. -/
lemma callback_stays (h : Contained A D) (hnone : D.jdwpList = []) (hk : Serves A k ev D) :
    Stays A (fun D => D) D (D.callback k ev) := by
  cases k with
  | socket a => exact localSocketEventFunc_stays h (hk.socket a rfl) ev
  | transport t => exact transportSocketEvents_stays h fun x p rest => hk.packet t x p rest rfl
  | auth t => exact adbAuthEvent_stays h ev t
  | authListener => exact adbAuthListener_stays h
  | registration => exact transportRegistrationFunc_stays h fun t rest => hk.removed t rest rfl
  | listener => exact ssListenerEventFunc_stays h ev
  | jdwpControl => exact jdwpControlEvent_stays h ev
  | jdwpProcess i =>
    rw [callback, jdwpProcessEvent, findProcess, hnone]
    trivial
  | subproc => trivial

lemma Serves.frame (hk : Serves A k ev D) (L : Loop FdeId) (io : Io) :
    Serves A k ev { D with loop := L, io := io } := by
  refine ⟨hk.socket, fun t x p rest ht hev hx hq => ?_, hk.removed⟩
  have hp := hk.packet t x p rest ht hev hx hq
  exact ⟨hp.named, hp.linked⟩

/-! ## The event loop -/

/-- Marking an `fdevent` as pending, or no longer so. -/
lemma Within.mark (h : Contained A D) (k : FdeId) {f : Fdevent}
    (hfd : f.fd = (D.loop.mem k).fd)
    (hstate : f.state &&& ~~~fdePending = (D.loop.mem k).state &&& ~~~fdePending) :
    Within A D { D with loop := D.loop.setMem k f } := by
  refine .loop h fun b _ => ?_
  by_cases hbk : FdeId.socket b = k
  · simp only [watches, hbk, Loop.setMem_mem_self, hfd, hstate]
  · exact watches_of_mem (Loop.setMem_mem_of_ne hbk ..)

lemma mask_or (s : BitVec 16) : (s ||| fdePending) &&& ~~~fdePending = s &&& ~~~fdePending := by
  rw [BitVec.and_or_distrib_right, show fdePending &&& ~~~fdePending = 0#16 by decide,
    BitVec.or_zero]

lemma mask_and (s : BitVec 16) : s &&& ~~~fdePending &&& ~~~fdePending = s &&& ~~~fdePending := by
  rw [BitVec.and_assoc, BitVec.and_self]

/-- One descriptor of a batch. -/
lemma fdeventReport_within (h : Contained A D) (k : FdeId) (ev : EpollMask) :
    Within A D { D with loop := D.loop.fdeventReport k ev } := by
  rw [Loop.fdeventReport]
  set fde : Fdevent :=
    { D.loop.mem k with events := (D.loop.mem k).events ||| Loop.fdeEvents ev } with hfde
  have hset : Within A D { D with loop := D.loop.setMem k fde } := .mark h k rfl rfl
  split_ifs
  · exact hset
  · exact hset
  · have hmark := hset.trans (.mark (f := { fde with state := fde.state ||| fdePending })
      hset.contained k (by simp only [Loop.setMem_mem_self])
      (by simp only [Loop.setMem_mem_self, mask_or]))
    exact hmark.trans (.aside hmark.contained rfl rfl rfl rfl rfl)

lemma fdeventProcess_stays (h : Contained A D) (batch : List (ℕ × EpollMask)) :
    Stays A (fun D => D) D (fdeventProcess batch D) := by
  induction batch generalizing D with
  | nil => exact .ok (.refl h)
  | cons entry batch ih =>
    obtain ⟨n, ev⟩ := entry
    rw [fdeventProcess]
    split
    · trivial
    case h_2 k _ =>
      split
      · cases D.touchFde k with
        | error r => trivial
        | ok _ =>
          have hreport := fdeventReport_within h k ev
          exact .after hreport (ih hreport.contained)
      · trivial

/-- `fdevent_call_fdfunc`: the callback is made if the `fdevent` is pending. -/
lemma callFdfunc_stays (h : Contained A D) (hcall : has (D.loop.mem k).state fdePending = true →
    ∀ L, Within A D { D with loop := L } → Stays A (fun D => D) { D with loop := L }
      (callback k (D.loop.mem k).events { D with loop := L })) :
    Stays A (fun D => D) D (D.callFdfunc k) := by
  rw [callFdfunc, Loop.fdeventCallFdfunc]
  by_cases hpend : has (D.loop.mem k).state fdePending = true
  · rw [if_pos hpend]
    have hmark := Within.mark (f := { D.loop.mem k with
      events := 0#16
      state := (D.loop.mem k).state &&& ~~~fdePending }) h k rfl (mask_and _)
    exact .after hmark (hcall hpend _ hmark)
  · rw [if_neg hpend]
    exact .ok (.mark h k rfl rfl)

/-- The callback of a socket whose shell has exited: it is marked, and called if there is nothing
left to read. -/
lemma forceEof_stays (h : Contained A D) (k : FdeId) (hcall : D.io.fionread = 0 →
    has (D.loop.mem k).state fdePending = false → ∀ L, Within A D { D with loop := L } →
      Stays A (fun D => D) { D with loop := L }
        (callback k ((D.loop.mem k).events ||| fdeRead) { D with loop := L })) :
    Stays A (fun D => D) D (do
      let D : Daemon := { D with
        loop := D.loop.setMem k { D.loop.mem k with forceEof := true } }
      if D.io.fionread ≠ 0 then pure D
      else
        let fde := { D.loop.mem k with events := (D.loop.mem k).events ||| fdeRead }
        if has fde.state fdePending then pure { D with loop := D.loop.setMem k fde }
        else do
          D.touchFde k
          let fde := { fde with state := fde.state ||| fdePending }
          callFdfunc k { D with loop := D.loop.setMem k fde }) := by
  simp only [Loop.setMem_mem_self]
  have heof : Within A D { D with
      loop := D.loop.setMem k { D.loop.mem k with forceEof := true } } := .mark h k rfl rfl
  have hmark : ∀ fde : Fdevent, fde.fd = (D.loop.mem k).fd →
      fde.state &&& ~~~fdePending = (D.loop.mem k).state &&& ~~~fdePending →
      Within A D { D with loop :=
        (D.loop.setMem k { D.loop.mem k with forceEof := true }).setMem k fde } := by
    intro fde hfd hstate
    refine heof.trans (.mark heof.contained k ?_ ?_)
    · rwa [Loop.setMem_mem_self]
    · rwa [Loop.setMem_mem_self]
  split
  case isTrue => exact .ok heof
  case isFalse hfion =>
    split
    case isTrue => exact .ok (hmark _ rfl rfl)
    case isFalse hidle =>
      cases Daemon.touchFde k _ with
      | error r => trivial
      | ok _ =>
        have hpend := hmark { D.loop.mem k with
          events := (D.loop.mem k).events ||| fdeRead
          state := (D.loop.mem k).state ||| fdePending
          forceEof := true } rfl (mask_or _)
        refine .after hpend (callFdfunc_stays hpend.contained fun _ L hL => ?_)
        rw [Loop.setMem_mem_self]
        exact hcall (not_not.mp hfion) (Bool.eq_false_of_not_eq_true hidle) L (hpend.trans hL)

/-- `fdevent_subproc_event_func`, in a state whose `fdevent`s are those of `D₀`. -/
lemma fdeventSubprocEventFunc_stays {D₀ : Daemon} (h : Contained A D)
    (hD : ∃ L, D = { D₀ with loop := L, io := e.io })
    (hmem : ∀ j, j ≠ .subproc → D.loop.mem j = D₀.loop.mem j)
    (htable : D.loop.fdTable = D₀.loop.fdTable)
    (hmax : D.loop.fdTableMax = D₀.loop.fdTableMax) (hnone : D₀.jdwpList = [])
    (hserves : ∀ k ev rs, D₀.forced e.io = some (k, ev, rs) → Serves A k ev D₀) :
    Stays A (fun D => D) D (D.fdeventSubprocEventFunc (D₀.loop.mem .subproc).events) := by
  obtain ⟨M, rfl⟩ := hD
  rw [fdeventSubprocEventFunc]
  cases hadd : Daemon.onLoop (Loop.fdeventAdd .subproc fdeRead) _ with
  | error r => trivial
  | ok D₁ =>
    have h₁ := (fdeventAdd_stays h (by rintro b - ⟨⟩) fdeRead).success hadd
    rw [onLoop] at hadd
    obtain ⟨N, hN, hD₁⟩ := bind_eq_ok_iff.mp hadd
    cases hD₁
    have hset := Loop.fdeventSet_spec hN
    refine .after h₁ ?_
    show Stays A (fun D => D) _ (if _ then _ else _)
    split
    case isFalse => exact .ok (.refl h₁.contained)
    case isTrue hev =>
      cases hread : Syscall.readFull 4 e.io.reads with
      | mk o rs =>
      cases o with
      | none => trivial
      | some bs =>
        dsimp only
        set n : ℕ := bs.foldr (fun b n => b.toNat + 256 * n) 0 with hn
        have hreads : Within A { D₀ with loop := N, io := e.io }
            { D₀ with loop := N, io := { e.io with reads := rs } } :=
          .aside h₁.contained rfl rfl rfl rfl rfl
        refine .after hreads ?_
        show Stays A (fun D => D) _ (if _ then _ else _)
        split
        case isTrue => exact .ok (.refl hreads.contained)
        case isFalse hlt =>
          split
          · exact .ok (.refl hreads.contained)
          · trivial
          case h_3 k hslot =>
            dsimp only
            split
            case isTrue => exact .ok (.refl hreads.contained)
            case isFalse hfd =>
              refine forceEof_stays hreads.contained k fun hfion hidle L hL => ?_
              by_cases hk : k = .subproc
              · subst hk
                trivial
              · have hsame : N.mem k = D₀.loop.mem k := (hset.mem_other k hk).trans (hmem k hk)
                have hforced := forced_eq (e := e) hev hread hn.symm
                  (by rwa [← hmax, ← hset.fdTableMax]) (by rwa [← htable, ← hset.fdTable])
                  (by rw [← hsame]; exact not_not.mp hfd) hfion (by rwa [← hsame])
                have hserve := (hserves k _ rs hforced).frame L { e.io with reads := rs }
                show Stays A (fun D => D) _ (callback k ((N.mem k).events ||| fdeRead) _)
                rw [hsame]
                exact callback_stays hL.contained hnone hserve

/-- One iteration of the inner loop of `fdevent_loop`. -/
lemma dispatch_stays (hact : e.action = .dispatch) (h : Contained A D) (hnone : D.jdwpList = [])
    (hserves : ∀ k ev rs, D.delivered e = some (k, ev, rs) → Serves A k ev D) :
    Stays A (fun D => D) { D with io := e.io } (Daemon.dispatch { D with io := e.io }) := by
  have hio : Contained A { D with io := e.io } := ⟨h.sealed, h.fresh⟩
  rw [Daemon.dispatch]
  cases hq : D.loop.fdeventPlistDequeue with
  | none => trivial
  | some kL =>
    obtain ⟨k, L⟩ := kL
    obtain ⟨rest, hlist, rfl⟩ := Loop.fdeventPlistDequeue_eq hq
    have htake : Within A { D with io := e.io }
        { D with loop := { D.loop with listPending := rest }, io := e.io } :=
      .aside hio rfl rfl rfl rfl rfl
    dsimp only
    refine .after htake ?_
    cases Daemon.touchFde k _ with
    | error r => trivial
    | ok _ =>
      show Stays A (fun D => D) _ (if k = .subproc then _ else _)
      split
      case isTrue hk =>
        subst hk
        by_cases hpend : has (D.loop.mem .subproc).state fdePending = true
        · have hforced : D.delivered e = D.forced e.io := by
            rw [delivered, hact, hlist]
            simp only [hpend, if_true]
          rw [Loop.fdeventCallFdfunc, if_pos hpend]
          have hmark := Within.mark (f := { D.loop.mem .subproc with
            events := 0#16
            state := (D.loop.mem .subproc).state &&& ~~~fdePending }) htake.contained .subproc rfl
            (mask_and _)
          refine .after hmark (fdeventSubprocEventFunc_stays hmark.contained ⟨_, rfl⟩
            (fun j hj => Loop.setMem_mem_of_ne hj ..) rfl rfl hnone fun k ev rs hk => ?_)
          exact hserves k ev rs (hforced.trans hk)
        · rw [Loop.fdeventCallFdfunc, if_neg hpend]
          exact .ok (.mark htake.contained .subproc rfl rfl)
      case isFalse hk =>
        refine callFdfunc_stays htake.contained fun hpend L hL => ?_
        have hdelivered : D.delivered e = some (k, (D.loop.mem k).events, e.io.reads) := by
          rw [delivered, hact, hlist]
          dsimp only
          rw [if_pos hpend, if_neg hk]
        exact callback_stays hL.contained hnone ((hserves k _ _ hdelivered).frame L e.io)

/-! ## Steps -/

/-- What the step is for lies in `A`. -/
structure Covers (A : Set Addr) (e : Event) (D : Daemon) : Prop where
  serves : ∀ k ev rs, D.delivered e = some (k, ev, rs) → Serves A k ev D
  closes : ∀ t x, e.action = .input t → D.transports t = some x → x.input = .closeAll →
    ∀ b, D.boundTo t b = true → b ∈ A

/-- A step stays within every sealed set that covers what it is for. -/
theorem step_stays (h : Contained A D) (hnone : D.jdwpList = []) (hc : Covers A e D) :
    Stays A (fun D => D) D (D.step e) := by
  have hio : Within A D { D with io := e.io } := .aside h rfl rfl rfl rfl rfl
  rw [step]
  refine .after hio ?_
  cases hact : e.action with
  | epollWait batch =>
    rw [act]
    split
    · exact fdeventProcess_stays hio.contained batch
    · trivial
  | dispatch => exact dispatch_stays hact h hnone hc.serves
  | output t =>
    rw [act]
    split
    · exact outputThread_stays hio.contained t
    · trivial
  | input t =>
    rw [act]
    split
    · exact inputThread_stays hio.contained fun x hx hpc => hc.closes t x hact hx hpc
    · trivial
  | registerSocket serial => exact registerSocketTransport_stays hio.contained serial
  | registerUsb => exact .ok (registerTransport_within hio.contained rfl)
  | openFd =>
    refine (takeFd_stays hio.contained _).seq fun y _ h₁ => ?_
    obtain ⟨fd, D₁⟩ := y
    cases fd with
    | none => trivial
    | some n => exact .ok (.refl h₁.contained)
  | closeFd n =>
    rw [act]
    split
    · exact .ok (.aside hio.contained rfl rfl rfl rfl rfl)
    · trivial

end Daemon

end Adbd
