import Adbd.Model.Step

/-!
# The threads of a transport, case by case

One step of `output_thread` or `input_thread` changes its transport, closes at most two
descriptors and queues at most one removal.  The relations below list the cases, so that the
invariants never look inside the thread functions.
-/

namespace Adbd

open Function

/-- `A_SYNC` with `arg0 = 0`, the message that ends a transport. -/
def Apacket.isFinalSync (p : Apacket) : Bool := p.msg.command = aSync && p.msg.arg0 = 0

/-- Both ends of a transport's socket pair are open and still its own. -/
def Daemon.pairOpen (t : TAddr) (x : Atransport) (D : Daemon) : Bool :=
  D.holds x.fd (.transportFd t) && D.holds x.transportSocket (.transportSocket t)

/-- `t->kick(t)`, with what it adds to the history. -/
inductive Kick (t : TAddr) (x : Atransport) (L : Loop FdeId) :
    Atransport → Loop FdeId → List Obs → Prop
  | idle (h : x.type = .loc → x.sfd = none) : Kick t x L x L [.kick t]
  | shut (n : ℕ) (own : Bool) (htype : x.type = .loc) (hsfd : x.sfd = some n) :
    Kick t x L { x with sfd := none } (L.adbClose n) [.shut (.sfd t) n own, .kick t]

/-- `t->close(t)`. -/
inductive CloseT (t : TAddr) (x : Atransport) (L : Loop FdeId) : Loop FdeId → List Obs → Prop
  | usb (h : x.type = .usb) : CloseT t x L L [.close t]
  | loc (own : Bool) (h : x.type = .loc) :
    CloseT t x L (L.adbClose x.fd) [.shut (.transportFd t) x.fd own, .close t]

/-- `transport_unref`, by a thread that has set its position to `done` already. -/
inductive Unref (t : TAddr) (x : Atransport) (L : Loop FdeId) (R : List (TAddr × RegAction)) :
    Atransport → Loop FdeId → List (TAddr × RegAction) → List Obs → Prop
  | shared (h : x.refCount - 1 ≠ 0) :
    Unref t x L R { x with refCount := x.refCount - 1 } L R []
  | last (M : Loop FdeId) (os : List Obs) (h : x.refCount - 1 = 0) (hkicked : x.kicked = true)
      (hclose : CloseT t x L M os) :
    Unref t x L R { x with refCount := 0 } M (R ++ [(t, .remove)]) (.posted t :: os)
  | kicks (y : Atransport) (M N : Loop FdeId) (os os' : List Obs) (h : x.refCount - 1 = 0)
      (hkicked : x.kicked = false) (hkick : Kick t x L y M os) (hclose : CloseT t x M N os') :
    Unref t x L R { y with refCount := 0, kicked := true } N (R ++ [(t, .remove)])
      (.posted t :: (os' ++ os))

/-- A step of `output_thread`, when `packet` is what `read_from_remote` returns. -/
inductive OutputStep (packet : Option Apacket) (t : TAddr) (D : Daemon) (x : Atransport) :
    Atransport → Loop FdeId → List (TAddr × RegAction) → List Obs → Prop
  | greet (p : Apacket) (hpc : x.output = .start) (hopen : D.pairOpen t x = true)
      (hp : p.msg = Daemon.syncPacket 1 (x.syncToken + 1)) :
    OutputStep packet t D x
      { x with syncToken := x.syncToken + 1, toMain := x.toMain ++ [p], output := .reading }
      D.loop D.registration []
  | push (p : Apacket) (hpc : x.output = .reading) (hopen : D.pairOpen t x = true)
      (hp : p.isFinalSync = true → ∃ q, packet = some q ∧ q.isFinalSync = true) :
    OutputStep packet t D x { x with toMain := x.toMain ++ [p], output := .reading } D.loop
      D.registration []
  | ended (i : ℕ) (hpc : x.output = .reading) :
    OutputStep packet t D x { x with output := .sendSync } D.loop D.registration [.put i]
  | sync (p : Apacket) (hpc : x.output = .sendSync) (hopen : D.pairOpen t x = true) :
    OutputStep packet t D x { x with toMain := x.toMain ++ [p], output := .kickTest } D.loop
      D.registration []
  | fail (token : UInt32) (i : ℕ)
      (hpc : x.output = .start ∨ x.output = .reading ∨ x.output = .sendSync)
      (hopen : D.pairOpen t x = false)
      (htoken : token = x.syncToken ∨ x.output = .start) :
    OutputStep packet t D x { x with syncToken := token, output := .kickTest } D.loop
      D.registration [.put i]
  | test (pc : OutputPc) (hpc : x.output = .kickTest ∨ x.output = .kickLock)
      (hpc' : pc = .kickLock ∨ pc = .unref ∧ x.kicked = true) :
    OutputStep packet t D x { x with output := pc } D.loop D.registration []
  | lock (hpc : x.output = .kickLock) (hkicked : x.kicked = false) :
    OutputStep packet t D x { x with kicked := true, output := .kickCall } D.loop D.registration
      []
  | kick (y : Atransport) (L : Loop FdeId) (os : List Obs) (hpc : x.output = .kickCall)
      (hkick : Kick t x D.loop y L os) :
    OutputStep packet t D x { y with output := .unref } L D.registration os
  | unref (y : Atransport) (L : Loop FdeId) (R : List (TAddr × RegAction)) (os : List Obs)
      (hpc : x.output = .unref)
      (h : Unref t { x with output := .done } D.loop D.registration y L R os) :
    OutputStep packet t D x y L R os

/-- A packet is handed to `write_to_remote`, or not. -/
def forwarded (t : TAddr) (x : Atransport) (p : Apacket) : List Obs :=
  if p.msg.command ≠ aSync ∧ x.active = true then [.toRemote t p] else []

/-- A step of `input_thread` other than `close_all_sockets`. -/
inductive InputStep (t : TAddr) (D : Daemon) (x : Atransport) :
    Atransport → Loop FdeId → List (TAddr × RegAction) → List Obs → Prop
  | take (p : Apacket) (rest : List Apacket) (hpc : x.input = .reading)
      (hq : x.toInput = p :: rest) (hp : p.isFinalSync = false) :
    InputStep t D x
      { x with
        toInput := rest
        active := x.active || (p.msg.command = aSync && p.msg.arg1 = x.syncToken) }
      D.loop D.registration (.put p.addr :: forwarded t x p)
  | final (p : Apacket) (rest : List Apacket) (hpc : x.input = .reading)
      (hq : x.toInput = p :: rest) (hp : p.isFinalSync = true) :
    InputStep t D x { x with toInput := rest, input := .closeAll } D.loop D.registration
      [.put p.addr]
  | eof (hpc : x.input = .reading) (hopen : D.pairOpen t x = false) :
    InputStep t D x { x with input := .closeAll } D.loop D.registration []
  | test (pc : InputPc) (hpc : x.input = .kickTest ∨ x.input = .kickLock)
      (hpc' : pc = .kickLock ∨ pc = .unref ∧ x.kicked = true) :
    InputStep t D x { x with input := pc } D.loop D.registration []
  | lock (hpc : x.input = .kickLock) (hkicked : x.kicked = false) :
    InputStep t D x { x with kicked := true, input := .kickCall } D.loop D.registration []
  | kick (y : Atransport) (L : Loop FdeId) (os : List Obs) (hpc : x.input = .kickCall)
      (hkick : Kick t x D.loop y L os) :
    InputStep t D x { y with input := .unref } L D.registration os
  | unref (y : Atransport) (L : Loop FdeId) (R : List (TAddr × RegAction)) (os : List Obs)
      (hpc : x.input = .unref)
      (h : Unref t { x with input := .done } D.loop D.registration y L R os) :
    InputStep t D x y L R os

/-! ## What a thread leaves alone -/

section Frame

variable {packet : Option Apacket} {t : TAddr} {D : Daemon} {x y : Atransport}
  {L M : Loop FdeId} {R S : List (TAddr × RegAction)} {os : List Obs}

lemma Kick.frame (h : Kick t x L y M os) : y = { x with sfd := y.sfd } := by
  cases h <;> rfl

lemma Unref.frame (h : Unref t x L R y M S os) :
    y = { x with sfd := y.sfd, refCount := y.refCount, kicked := y.kicked } := by
  cases h with
  | shared => rfl
  | last => rfl
  | kicks z M N os os' _ _ hkick _ => rw [hkick.frame]

lemma OutputStep.frame (h : OutputStep packet t D x y L R os) :
    y = { x with
      syncToken := y.syncToken
      toMain := y.toMain
      output := y.output
      kicked := y.kicked
      sfd := y.sfd
      refCount := y.refCount } := by
  cases h with
  | kick z L os _ hkick => rw [hkick.frame]
  | unref z L R os _ h => rw [h.frame]
  | _ => rfl

lemma InputStep.frame (h : InputStep t D x y L R os) :
    y = { x with
      toInput := y.toInput
      active := y.active
      input := y.input
      kicked := y.kicked
      sfd := y.sfd
      refCount := y.refCount } := by
  cases h with
  | kick z L os _ hkick => rw [hkick.frame]
  | unref z L R os _ h => rw [h.frame]
  | _ => rfl

/-! A thread only closes descriptors. -/

section Closes

variable {P : Loop FdeId → Prop} (hP : ∀ L n, P L → P (L.adbClose n))
include hP

lemma Kick.closes (h : Kick t x L y M os) (hL : P L) : P M := by
  cases h with
  | idle => exact hL
  | shut n => exact hP L n hL

lemma CloseT.closes (h : CloseT t x L M os) (hL : P L) : P M := by
  cases h with
  | usb => exact hL
  | loc => exact hP L _ hL

lemma Unref.closes (h : Unref t x L R y M S os) (hL : P L) : P M := by
  cases h with
  | shared => exact hL
  | last M os _ _ hclose => exact hclose.closes hP hL
  | kicks z M N os os' _ _ hkick hclose => exact hclose.closes hP (hkick.closes hP hL)

lemma OutputStep.closes (h : OutputStep packet t D x y L R os) (hL : P D.loop) : P L := by
  cases h with
  | kick z L os _ hkick => exact hkick.closes hP hL
  | unref z L R os _ h => exact h.closes hP hL
  | _ => exact hL

lemma InputStep.closes (h : InputStep t D x y L R os) (hL : P D.loop) : P L := by
  cases h with
  | kick z L os _ hkick => exact hkick.closes hP hL
  | unref z L R os _ h => exact h.closes hP hL
  | _ => exact hL

end Closes

/-! The history of a thread is about its own transport. -/

/-- History of the threads of `t`. -/
def Obs.ofThread (t : TAddr) : Obs → Prop
  | .put _ => True
  | .toRemote u _ | .posted u | .kick u | .close u => u = t
  | .shut d _ _ => d = .sfd t ∨ d = .transportFd t
  | _ => False

lemma Kick.ofThread (h : Kick t x L y M os) {o : Obs} (ho : o ∈ os) : o.ofThread t := by
  cases h with
  | idle =>
    rw [List.mem_singleton] at ho
    subst ho
    exact rfl
  | shut n own =>
    rw [List.mem_cons, List.mem_singleton] at ho
    rcases ho with rfl | rfl
    · exact .inl rfl
    · exact rfl

lemma CloseT.ofThread (h : CloseT t x L M os) {o : Obs} (ho : o ∈ os) : o.ofThread t := by
  cases h with
  | usb =>
    rw [List.mem_singleton] at ho
    subst ho
    exact rfl
  | loc own =>
    rw [List.mem_cons, List.mem_singleton] at ho
    rcases ho with rfl | rfl
    · exact .inr rfl
    · exact rfl

lemma Unref.ofThread (h : Unref t x L R y M S os) {o : Obs} (ho : o ∈ os) : o.ofThread t := by
  cases h with
  | shared => cases ho
  | last M os _ _ hclose =>
    rcases List.mem_cons.mp ho with rfl | ho
    · exact rfl
    · exact hclose.ofThread ho
  | kicks z M N os os' _ _ hkick hclose =>
    rcases List.mem_cons.mp ho with rfl | ho
    · exact rfl
    rcases List.mem_append.mp ho with ho | ho
    · exact hclose.ofThread ho
    · exact hkick.ofThread ho

lemma OutputStep.ofThread (h : OutputStep packet t D x y L R os) {o : Obs} (ho : o ∈ os) :
    o.ofThread t := by
  cases h with
  | ended i =>
    rw [List.mem_singleton] at ho
    subst ho
    trivial
  | fail token i =>
    rw [List.mem_singleton] at ho
    subst ho
    trivial
  | kick z L os _ hkick => exact hkick.ofThread ho
  | unref z L R os _ h => exact h.ofThread ho
  | _ => cases ho

lemma InputStep.ofThread (h : InputStep t D x y L R os) {o : Obs} (ho : o ∈ os) :
    o.ofThread t := by
  cases h with
  | take p =>
    rcases List.mem_cons.mp ho with rfl | ho
    · trivial
    · rw [forwarded] at ho
      split at ho
      · rw [List.mem_singleton] at ho
        subst ho
        exact rfl
      · cases ho
  | final p =>
    rw [List.mem_singleton] at ho
    subst ho
    trivial
  | kick z L os _ hkick => exact hkick.ofThread ho
  | unref z L R os _ h => exact h.ofThread ho
  | _ => cases ho

end Frame

/-- The daemon after a thread's step. -/
def Daemon.threadResult (t : TAddr) (x : Atransport) (L : Loop FdeId)
    (R : List (TAddr × RegAction)) (os : List Obs) (n : ℕ) (D : Daemon) : Daemon :=
  { D with
    transports := update D.transports t (some x)
    loop := L
    registration := R
    trace := os ++ D.trace
    nextPacket := n }

namespace Daemon

variable {t : TAddr} {x : Atransport} {D D' : Daemon}

/-! ## Memory -/

lemma derefT_eq_ok : D.derefT t = .ok x ↔ D.transports t = some x := by
  unfold derefT
  cases D.transports t <;> simp

lemma modifyT_eq_ok {f : Atransport → Atransport} :
    D.modifyT t f = .ok D' ↔ ∃ x, D.transports t = some x ∧ D' = D.setTransport t (f x) := by
  rw [modifyT, Transition.bind_eq_ok_iff]
  constructor
  · rintro ⟨x, hx, h⟩
    cases h
    exact ⟨x, derefT_eq_ok.mp hx, rfl⟩
  · rintro ⟨x, hx, rfl⟩
    exact ⟨x, derefT_eq_ok.mpr hx, rfl⟩

@[simp] lemma setTransport_transports_self (t : TAddr) (x : Atransport) (D : Daemon) :
    (D.setTransport t x).transports t = some x :=
  update_self ..

@[simp] lemma setTransport_setTransport (t : TAddr) (x y : Atransport) (D : Daemon) :
    (D.setTransport t x).setTransport t y = D.setTransport t y := by
  simp [setTransport]

/-! ## `kick` and `transport_unref` -/

lemma kick_ok (hx : D.transports t = some x) (h : D.kick t = .ok D') :
    ∃ y L os, Kick t x D.loop y L os ∧ D' = { D with
      transports := update D.transports t (some y)
      loop := L
      trace := os ++ D.trace } := by
  rw [kick, Transition.bind_eq_ok_iff] at h
  obtain ⟨x', hx', h⟩ := h
  rw [derefT_eq_ok, hx, Option.some.injEq] at hx'
  subst hx'
  simp only at h
  split at h
  case h_1 n htype hsfd =>
    cases h
    exact ⟨_, _, _, .shut n _ htype hsfd, rfl⟩
  case h_2 hno =>
    cases h
    refine ⟨x, D.loop, _, .idle fun htype => ?_, ?_⟩
    · rcases Option.eq_none_or_eq_some x.sfd with hsfd | ⟨n, hsfd⟩
      · exact hsfd
      · exact (hno n htype hsfd).elim
    · rw [← hx, update_eq_self]
      rfl

lemma closeTransport_ok (hx : D.transports t = some x) (h : D.closeTransport t = .ok D') :
    ∃ L os, CloseT t x D.loop L os ∧ D' = { D with loop := L, trace := os ++ D.trace } := by
  rw [closeTransport, Transition.bind_eq_ok_iff] at h
  obtain ⟨x', hx', h⟩ := h
  rw [derefT_eq_ok, hx, Option.some.injEq] at hx'
  subst hx'
  simp only at h
  split at h
  case h_1 htype =>
    cases h
    exact ⟨_, _, .loc _ htype, rfl⟩
  case h_2 htype =>
    cases h
    exact ⟨_, _, .usb htype, rfl⟩

/-- Closing depends on two fields only. -/
lemma CloseT_congr {y : Atransport} {L M : Loop FdeId} {os : List Obs} (h : CloseT t y L M os)
    (htype : y.type = x.type) (hfd : y.fd = x.fd) : CloseT t x L M os := by
  cases h with
  | usb h => exact .usb (htype ▸ h)
  | loc own h =>
    rw [hfd]
    exact .loc own (htype ▸ h)

lemma transportUnref_ok (hx : D.transports t = some x) (h : D.transportUnref t = .ok D') :
    ∃ y L R os, Unref t x D.loop D.registration y L R os ∧ D' = { D with
      transports := update D.transports t (some y)
      loop := L
      registration := R
      trace := os ++ D.trace } := by
  rw [transportUnref, Transition.bind_eq_ok_iff] at h
  obtain ⟨x', hx', h⟩ := h
  rw [derefT_eq_ok, hx, Option.some.injEq] at hx'
  subst hx'
  simp only at h
  split at h
  case isFalse hne =>
    cases h
    exact ⟨_, _, _, [], .shared hne, rfl⟩
  case isTrue hlast =>
    rw [Transition.bind_eq_ok_iff] at h
    obtain ⟨D₁, h₁, h⟩ := h
    rw [Transition.bind_eq_ok_iff] at h
    obtain ⟨D₂, h₂, h⟩ := h
    cases h
    split at h₁
    case isTrue hk =>
      cases h₁
      obtain ⟨M, os, hclose, rfl⟩ := closeTransport_ok (setTransport_transports_self ..) h₂
      refine ⟨_, _, _, _, .last M os hlast hk (CloseT_congr hclose rfl rfl), ?_⟩
      simp [setTransport, hlast, emit]
    case isFalse hk =>
      rw [Bool.not_eq_true] at hk
      rw [Transition.bind_eq_ok_iff] at h₁
      obtain ⟨D₃, h₃, h₁⟩ := h₁
      obtain ⟨z, hz, rfl⟩ := modifyT_eq_ok.mp h₃
      rw [setTransport_transports_self, Option.some.injEq] at hz
      subst hz
      obtain ⟨y, L, os, hkick, rfl⟩ := kick_ok (setTransport_transports_self ..) h₁
      obtain ⟨M, os', hclose, rfl⟩ := closeTransport_ok (x := y) (update_self ..) h₂
      cases hkick with
      | idle hidle =>
        refine ⟨_, _, _, _, .kicks x D.loop M _ os' hlast hk (.idle hidle)
          (CloseT_congr hclose rfl rfl), ?_⟩
        simp [setTransport, hlast, emit]
      | shut n own htype hsfd =>
        refine ⟨_, _, _, _, .kicks _ _ M _ os' hlast hk (.shut n own htype hsfd)
          (CloseT_congr hclose rfl rfl), ?_⟩
        simp [setTransport, hlast, emit]

/-! ## The two threads -/

lemma setOutput_ok {pc : OutputPc} (h : D.setOutput t pc = .ok D')
    (hx : D.transports t = some x) : D' = D.setTransport t { x with output := pc } := by
  obtain ⟨y, hy, rfl⟩ := modifyT_eq_ok.mp h
  rw [hx, Option.some.injEq] at hy
  rw [hy]

lemma setInput_ok {pc : InputPc} (h : D.setInput t pc = .ok D')
    (hx : D.transports t = some x) : D' = D.setTransport t { x with input := pc } := by
  obtain ⟨y, hy, rfl⟩ := modifyT_eq_ok.mp h
  rw [hx, Option.some.injEq] at hy
  rw [hy]

lemma writeToMain_ok {p : Apacket} {ok : Bool} (h : D.writeToMain t p = .ok (ok, D'))
    (hx : D.transports t = some x) :
    D.pairOpen t x = true ∧ ok = true ∧
      D' = D.setTransport t { x with toMain := x.toMain ++ [p] } ∨
    D.pairOpen t x = false ∧ ok = false ∧ D' = D.putApacket p := by
  rw [writeToMain, Transition.bind_eq_ok_iff] at h
  obtain ⟨y, hy, h⟩ := h
  rw [derefT_eq_ok, hx, Option.some.injEq] at hy
  subst hy
  split at h
  case isTrue hfd =>
    split at h
    case isTrue hsock =>
      cases h
      exact .inl ⟨by rw [pairOpen, hfd, hsock]; rfl, rfl, rfl⟩
    case isFalse hsock =>
      cases h
      exact .inr ⟨by simp [pairOpen, hsock], rfl, rfl⟩
  case isFalse hfd =>
    split at h
    · cases h
    · cases h
      exact .inr ⟨by simp [pairOpen, hfd], rfl, rfl⟩

/-- `output_thread` writing a packet and going on according to the result. -/
lemma writeToMain_setOutput_ok {p : Apacket} {pc : OutputPc}
    (h : (do
      let (ok, D) ← D.writeToMain t p
      D.setOutput t (if ok then pc else .kickTest)) = .ok D') (hx : D.transports t = some x) :
    D.pairOpen t x = true ∧
      D' = D.setTransport t { x with toMain := x.toMain ++ [p], output := pc } ∨
    D.pairOpen t x = false ∧
      D' = (D.putApacket p).setTransport t { x with output := .kickTest } := by
  rw [Transition.bind_eq_ok_iff] at h
  obtain ⟨⟨ok, D₁⟩, h₁, h⟩ := h
  rcases writeToMain_ok h₁ hx with ⟨hopen, rfl, rfl⟩ | ⟨hopen, rfl, rfl⟩
  · have := setOutput_ok h (setTransport_transports_self ..)
    exact .inl ⟨hopen, by simpa using this⟩
  · exact .inr ⟨hopen, setOutput_ok h hx⟩

/-- A step of `output_thread` is one of the cases. -/
theorem outputThread_ok (hx : D.transports t = some x) (h : D.outputThread t = .ok D') :
    ∃ y L R os n, OutputStep D.io.packet t D x y L R os ∧
      D' = D.threadResult t y L R os n := by
  rw [outputThread, Transition.bind_eq_ok_iff] at h
  obtain ⟨x', hx', h⟩ := h
  rw [derefT_eq_ok, hx, Option.some.injEq] at hx'
  subst hx'
  split at h
  case h_1 hpc =>
    have h' := writeToMain_setOutput_ok h (setTransport_transports_self ..)
    rcases h' with ⟨hopen, rfl⟩ | ⟨hopen, rfl⟩
    · refine ⟨_, _, _, _, D.nextPacket + 1, .greet
        { addr := D.nextPacket, msg := syncPacket 1 (x.syncToken + 1) } hpc hopen rfl, ?_⟩
      simp [threadResult, setTransport]
    · refine ⟨_, _, _, _, D.nextPacket + 1, .fail (x.syncToken + 1) D.nextPacket (.inl hpc) hopen
        (.inr hpc), ?_⟩
      simp [threadResult, setTransport, putApacket, emit]
  case h_2 hpc =>
    simp only at h
    split at h
    · have := setOutput_ok h (x := x) hx
      subst this
      exact ⟨_, _, _, _, _, .ended D.nextPacket hpc, rfl⟩
    case h_2 q hq =>
      split at h
      · cases h
      · rcases writeToMain_setOutput_ok h (x := x) hx with ⟨hopen, rfl⟩ | ⟨hopen, rfl⟩
        · refine ⟨_, _, _, _, _, .push _ hpc hopen ?_, rfl⟩
          exact fun hfinal => ⟨q, hq, hfinal⟩
        · exact ⟨_, _, _, _, _, .fail x.syncToken D.nextPacket (.inr (.inl hpc)) hopen (.inl rfl),
            rfl⟩
  case h_3 hpc =>
    simp only at h
    rw [Transition.bind_eq_ok_iff] at h
    obtain ⟨⟨ok, D₁⟩, h₁, h⟩ := h
    rcases writeToMain_ok h₁ (x := x) hx with ⟨hopen, rfl, rfl⟩ | ⟨hopen, rfl, rfl⟩
    · have := setOutput_ok h (setTransport_transports_self ..)
      subst this
      refine ⟨_, _, _, _, D.nextPacket + 1,
        .sync { addr := D.nextPacket, msg := syncPacket 0 0 } hpc hopen, ?_⟩
      simp [threadResult, setTransport, getApacket]
    · have := setOutput_ok h (x := x) hx
      subst this
      exact ⟨_, _, _, _, _, .fail x.syncToken D.nextPacket (.inr (.inr hpc)) hopen (.inl rfl), rfl⟩
  case h_4 hpc =>
    have := setOutput_ok h hx
    subst this
    refine ⟨_, _, _, _, _, .test _ (.inl hpc) ?_, rfl⟩
    split
    case isTrue hk => exact .inr ⟨rfl, hk⟩
    case isFalse => exact .inl rfl
  case h_5 hpc =>
    split at h
    case isTrue hk =>
      have := setOutput_ok h hx
      subst this
      exact ⟨_, _, _, _, _, .test _ (.inr hpc) (.inr ⟨rfl, hk⟩), rfl⟩
    case isFalse hk =>
      rw [Transition.bind_eq_ok_iff] at h
      obtain ⟨D₁, h₁, h⟩ := h
      obtain ⟨z, hz, rfl⟩ := modifyT_eq_ok.mp h₁
      rw [hx, Option.some.injEq] at hz
      subst hz
      have := setOutput_ok h (setTransport_transports_self ..)
      subst this
      exact ⟨_, _, _, _, D.nextPacket, .lock hpc (by simpa using hk),
        by simp [threadResult, setTransport]⟩
  case h_6 hpc =>
    rw [Transition.bind_eq_ok_iff] at h
    obtain ⟨D₁, h₁, h⟩ := h
    obtain ⟨y, L, os, hkick, rfl⟩ := kick_ok hx h₁
    have := setOutput_ok h (x := y) (update_self ..)
    subst this
    exact ⟨_, _, _, _, D.nextPacket, .kick y L os hpc hkick, by simp [threadResult, setTransport]⟩
  case h_7 hpc =>
    rw [Transition.bind_eq_ok_iff] at h
    obtain ⟨D₁, h₁, h⟩ := h
    have := setOutput_ok h₁ hx
    subst this
    obtain ⟨y, L, R, os, hunref, rfl⟩ := transportUnref_ok (setTransport_transports_self ..) h
    exact ⟨_, _, _, _, D.nextPacket, .unref y L R os hpc hunref,
      by simp [threadResult, setTransport]⟩
  case h_8 => cases h

/-- `input_thread` on a packet that ends the loop. -/
lemma inputPacket_final {p : Apacket} (hp : p.isFinalSync = true) (hx : D.transports t = some x)
    (h : D.inputPacket t p = .ok D') :
    D' = (D.putApacket p).setTransport t { x with input := .closeAll } := by
  rw [Apacket.isFinalSync, Bool.and_eq_true, decide_eq_true_eq, decide_eq_true_eq] at hp
  rw [inputPacket, Transition.bind_eq_ok_iff] at h
  obtain ⟨x', hx', h⟩ := h
  rw [derefT_eq_ok, hx, Option.some.injEq] at hx'
  subst hx'
  rw [if_pos hp.1, if_pos hp.2] at h
  exact setInput_ok h hx

/-- `input_thread` on any other packet. -/
lemma inputPacket_take {p : Apacket} (hp : p.isFinalSync = false) (hx : D.transports t = some x)
    (h : D.inputPacket t p = .ok D') :
    D' = { D.setTransport t { x with
        active := x.active || (p.msg.command = aSync && p.msg.arg1 = x.syncToken) } with
      trace := (.put p.addr :: forwarded t x p) ++ D.trace } := by
  have hself : D.setTransport t { x with active := x.active } = D := by
    simp only [setTransport]
    rw [← hx, update_eq_self]
  rw [Apacket.isFinalSync, Bool.and_eq_false_iff, decide_eq_false_iff_not,
    decide_eq_false_iff_not] at hp
  rw [inputPacket, Transition.bind_eq_ok_iff] at h
  obtain ⟨x', hx', h⟩ := h
  rw [derefT_eq_ok, hx, Option.some.injEq] at hx'
  subst hx'
  split at h
  case isTrue hsync =>
    have hzero : p.msg.arg0 ≠ 0 := hp.resolve_left (not_not_intro hsync)
    have hno : forwarded t x p = [] := by simp [forwarded, hsync]
    rw [if_neg hzero] at h
    split at h
    case isTrue htoken =>
      cases h
      simp [hno, hsync, htoken, putApacket, emit, setTransport]
    case isFalse htoken =>
      cases h
      rw [hno]
      simp only [hsync, htoken, decide_true, decide_false, Bool.and_false, Bool.or_false, hself]
      rfl
  case isFalse hsync =>
    simp only [hsync, decide_false, Bool.false_and, Bool.or_false, hself]
    split at h
    case isTrue hactive =>
      cases h
      rw [forwarded, if_pos ⟨hsync, hactive⟩]
      rfl
    case isFalse hactive =>
      cases h
      rw [forwarded, if_neg fun hboth => hactive hboth.2]
      rfl

/-- A step of `input_thread` that does not close sockets is one of the cases. -/
theorem inputThread_ok (hx : D.transports t = some x) (hpc : x.input ≠ .closeAll)
    (h : D.inputThread t = .ok D') :
    ∃ y L R os, InputStep t D x y L R os ∧ D' = D.threadResult t y L R os D.nextPacket := by
  rw [inputThread, Transition.bind_eq_ok_iff] at h
  obtain ⟨x', hx', h⟩ := h
  rw [derefT_eq_ok, hx, Option.some.injEq] at hx'
  subst hx'
  split at h
  case h_1 hread =>
    split at h
    case isTrue hfd =>
      split at h
      case h_1 p rest hq =>
        cases hfinal : p.isFinalSync with
        | true =>
          have := inputPacket_final hfinal (setTransport_transports_self ..) h
          subst this
          exact ⟨_, _, _, _, .final p rest hread hq hfinal,
            by simp [threadResult, setTransport, putApacket, emit]⟩
        | false =>
          have := inputPacket_take hfinal (setTransport_transports_self ..) h
          subst this
          exact ⟨_, _, _, _, .take p rest hread hq hfinal,
            by simp [threadResult, setTransport, forwarded]⟩
      case h_2 hq =>
        split at h
        · cases h
        case isFalse hsock =>
          have := setInput_ok h hx
          subst this
          exact ⟨_, _, _, _, .eof hread (by simp [pairOpen, hsock]), rfl⟩
    case isFalse hfd =>
      split at h
      · cases h
      · have := setInput_ok h hx
        subst this
        exact ⟨_, _, _, _, .eof hread (by simp [pairOpen, hfd]), rfl⟩
  case h_2 hclose => exact absurd hclose hpc
  case h_3 htest =>
    have := setInput_ok h hx
    subst this
    refine ⟨_, _, _, _, .test _ (.inl htest) ?_, rfl⟩
    split
    case isTrue hk => exact .inr ⟨rfl, hk⟩
    case isFalse => exact .inl rfl
  case h_4 hlock =>
    split at h
    case isTrue hk =>
      have := setInput_ok h hx
      subst this
      exact ⟨_, _, _, _, .test _ (.inr hlock) (.inr ⟨rfl, hk⟩), rfl⟩
    case isFalse hk =>
      rw [Transition.bind_eq_ok_iff] at h
      obtain ⟨D₁, h₁, h⟩ := h
      obtain ⟨z, hz, rfl⟩ := modifyT_eq_ok.mp h₁
      rw [hx, Option.some.injEq] at hz
      subst hz
      have := setInput_ok h (setTransport_transports_self ..)
      subst this
      exact ⟨_, _, _, _, .lock hlock (by simpa using hk), by simp [threadResult, setTransport]⟩
  case h_5 hkickpc =>
    rw [Transition.bind_eq_ok_iff] at h
    obtain ⟨D₁, h₁, h⟩ := h
    obtain ⟨y, L, os, hkick, rfl⟩ := kick_ok hx h₁
    have := setInput_ok h (x := y) (update_self ..)
    subst this
    exact ⟨_, _, _, _, .kick y L os hkickpc hkick, by simp [threadResult, setTransport]⟩
  case h_6 hunrefpc =>
    rw [Transition.bind_eq_ok_iff] at h
    obtain ⟨D₁, h₁, h⟩ := h
    have := setInput_ok h₁ hx
    subst this
    obtain ⟨y, L, R, os, hunref, rfl⟩ := transportUnref_ok (setTransport_transports_self ..) h
    exact ⟨_, _, _, _, .unref y L R os hunrefpc hunref, by simp [threadResult, setTransport]⟩
  case h_7 => cases h

end Daemon

end Adbd
