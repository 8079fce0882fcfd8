import Adbd.Accounts.Step
import Adbd.Effects.Closing

/-!
# Accounts: what a step does to a packet

A step of the main loop takes at most one packet from an `output_thread`, and keeps its books
otherwise.  The two threads of a transport move one packet each: `output_thread` asks for one and
writes it to the main loop or releases it, `input_thread` releases one that was handed on.  `Shift`
says by how much the numbers of the accounts change, and `Turn` lists the ways a step can go.
-/

namespace Adbd

open Function Transition FlagWord Daemon

/-! ## Changes of the accounts -/

/-- From `D` to `D'` packet `n` gains `g n` places, at most `i n` of it are new on the way to the
main loop, and `k n` have been taken by an `input_thread`. -/
structure Shift (g i k : ℕ → ℤ) (D D' : Daemon) : Prop where
  sane : D'.Sane
  account : ∀ n, (D'.account n : ℤ) = D.account n + g n
  incoming : ∀ n, (D'.incoming n : ℤ) ≤ D.incoming n + i n
  flow : ∀ n, (D'.outgoing n : ℤ) + k n + D.handedOn n ≤ D.outgoing n + D'.handedOn n
  next : D.nextPacket ≤ D'.nextPacket

section Shifts

variable {D D' D'' : Daemon} {g g' i i' k k' : ℕ → ℤ} {c : ℕ} {t : TAddr} {x : Atransport}
  {p : Apacket}

lemma Books.shift (h : Books g c D D') : Shift g 0 0 D D' := by
  refine ⟨h.sane, h.balance, fun n => ?_, fun n => ?_, h.next⟩
  · have := h.incoming n
    rw [Pi.zero_apply]
    omega
  · have := h.flow n
    rw [Pi.zero_apply]
    omega

lemma Shift.trans (h : Shift g i k D D') (h' : Shift g' i' k' D' D'') :
    Shift (g + g') (i + i') (k + k') D D'' := by
  refine ⟨h'.sane, fun n => ?_, fun n => ?_, fun n => ?_, h.next.trans h'.next⟩
  · rw [h'.account, h.account, Pi.add_apply, add_assoc]
  · have hfst := h.incoming n
    have hsnd := h'.incoming n
    rw [Pi.add_apply]
    omega
  · have hfst := h.flow n
    have hsnd := h'.flow n
    rw [Pi.add_apply]
    omega

/-- A change that the accounts do not notice, before or after. -/
lemma Shift.seq (h : Shift g i k D D') (h' : Books 0 c D' D'') : Shift g i k D D'' := by
  have hboth := h.trans h'.shift
  rwa [add_zero, add_zero, add_zero] at hboth

lemma Books.then (h : Books 0 c D D') (h' : Shift g i k D' D'') : Shift g i k D D'' := by
  have hboth := h.shift.trans h'
  rwa [zero_add, zero_add, zero_add] at hboth

/-- The main loop takes a packet from its queue. -/
lemma pop_shift (hD : D.Sane) (hx : D.transports t = some x) {rest : List Apacket}
    (hp : x.toMain = p :: rest) :
    Shift 0 (Pi.single p.addr (-1)) 0 D (D.pop t x rest) := by
  have hbooks := (pop_books hD hx hp).shift
  refine ⟨hbooks.sane, hbooks.account, fun n => ?_, hbooks.flow, hbooks.next⟩
  have hin := pop_incoming hD hx hp n
  have hone := occurrences_singleton n p
  have hneg : (Pi.single p.addr (-1) : ℕ → ℤ) n = -(Pi.single p.addr 1 : ℕ → ℤ) n := by
    rw [Pi.single_apply, Pi.single_apply]
    split_ifs <;> rfl
  rw [hneg]
  omega

/-- An `output_thread` writes a packet for the main loop. -/
lemma push_shift (hD : D.Sane) (hx : D.transports t = some x) (p : Apacket) :
    Shift 0 (Pi.single p.addr 1) 0 D
      (D.setTransport t { x with toMain := x.toMain ++ [p] }) := by
  have hsame : ∀ n, (D.setTransport t { x with toMain := x.toMain ++ [p] }).outgoing n =
      D.outgoing n := by
    intro n
    apply Heap.total_update_same
    rw [hx]
    rfl
  refine ⟨⟨hD.fresh, fun u y hu => ?_, hD.typed, hD.plain, hD.noProcess⟩, fun n => ?_, fun n => ?_,
    fun n => ?_, le_refl _⟩
  · by_cases hut : u = t
    · exact hut ▸ hD.freshT t x hx
    · exact hD.freshT u y ((update_of_ne hut ..).symm.trans hu)
  · rw [Pi.zero_apply, add_zero]
    rfl
  · have h := Heap.total_update (w := fun x : Atransport => occurrences n x.toMain)
      (S := D.transports) (hD.freshT t x hx) (some { x with toMain := x.toMain ++ [p] })
    rw [hx] at h
    have h' : (D.setTransport t { x with toMain := x.toMain ++ [p] }).incoming n +
        occurrences n x.toMain = D.incoming n + occurrences n (x.toMain ++ [p]) := h
    have happend := occurrences_append n x.toMain [p]
    have hone := occurrences_singleton n p
    omega
  · have hout := hsame n
    have hhanded : (D.setTransport t { x with toMain := x.toMain ++ [p] }).handedOn n =
      D.handedOn n := rfl
    rw [Pi.zero_apply, hout, hhanded]
    omega

/-- An `input_thread` takes a packet from its queue. -/
lemma drain_shift (hD : D.Sane) (hx : D.transports t = some x) {rest : List Apacket}
    (hp : x.toInput = p :: rest) :
    Shift 0 0 (Pi.single p.addr 1) D (D.setTransport t { x with toInput := rest }) := by
  have hsame : ∀ n, (D.setTransport t { x with toInput := rest }).incoming n = D.incoming n := by
    intro n
    apply Heap.total_update_same
    rw [hx]
    rfl
  refine ⟨⟨hD.fresh, fun u y hu => ?_, hD.typed, hD.plain, hD.noProcess⟩, fun n => ?_, fun n => ?_,
    fun n => ?_, le_refl _⟩
  · by_cases hut : u = t
    · exact hut ▸ hD.freshT t x hx
    · exact hD.freshT u y ((update_of_ne hut ..).symm.trans hu)
  · rw [Pi.zero_apply, add_zero]
    rfl
  · rw [hsame, Pi.zero_apply, add_zero]
  · have h := Heap.total_update (w := fun x : Atransport => occurrences n x.toInput)
      (S := D.transports) (hD.freshT t x hx) (some { x with toInput := rest })
    rw [hx] at h
    have h' : (D.setTransport t { x with toInput := rest }).outgoing n +
        occurrences n x.toInput = D.outgoing n + occurrences n rest := h
    have hcons : occurrences n x.toInput = occurrences n [p] + occurrences n rest := by
      rw [hp]
      exact occurrences_append n [p] rest
    have hone := occurrences_singleton n p
    have hhanded : (D.setTransport t { x with toInput := rest }).handedOn n = D.handedOn n := rfl
    rw [hhanded]
    omega

/-- What costs nothing goes through without a trace in the books. -/
lemma Balanced.ensures {x : Except Stop Daemon}
    (h : Balanced 0 0 (fun D' => D') D x fun _ => True) : Ensures x (Books 0 0 D) :=
  h.imp (fun _ hb => hb.1) fun _ _ => trivial

lemma NotFull.le {r : Stop} {c c' : ℕ} (h : NotFull c D r) (hc : c ≤ c') : NotFull c' D r := by
  intro hroom
  refine h fun t x n hx hn => ?_
  have := hroom t x n hx hn
  omega

end Shifts

namespace Daemon

variable {D : Daemon} {t : TAddr} {x : Atransport} {p : Apacket}

/-! ## The threads of a transport -/

/-- `write_packet` of `output_thread`: the packet is on its way, or released. -/
lemma writeToMain_shift (hD : D.Sane) (hx : D.transports t = some x) (p : Apacket) :
    Ensures (D.writeToMain t p) fun y =>
      Shift 0 (Pi.single p.addr 1) 0 D y.2 ∨ Books (Pi.single p.addr 1) 0 D y.2 := by
  have hput : Books (Pi.single p.addr 1) 0 D (D.putApacket p) := .putApacket hD p
  rw [writeToMain, derefT_bind hx]
  split
  · split
    · exact Or.inl (push_shift hD hx p)
    · exact Or.inr hput
  · split
    · trivial
    · exact Or.inr hput

/-- What an `output_thread` does: it puts a new packet on its way, or nothing. -/
def Arrives (D D' : Daemon) : Prop :=
  Shift (Pi.single D.nextPacket (-1)) (Pi.single D.nextPacket 1) 0 D D' ∨ Books 0 0 D D'

/-- A new packet is written to the main loop, and the thread goes on. -/
lemma arrives_write {y : Atransport} (hD : D.Sane) (hx : D.transports t = some x)
    (hmain : y.toMain = x.toMain) (hinput : y.toInput = x.toInput) (hp : p.addr = D.nextPacket)
    (pc : Bool → OutputPc) :
    Ensures (do
      let (ok, D) ← (D.getApacket.2.setTransport t y).writeToMain t p
      D.setOutput t (pc ok)) (Arrives D) := by
  have hget := Books.getApacket hD
  have hset : Books 0 0 D.getApacket.2 (D.getApacket.2.setTransport t y) :=
    .setTransport hget.sane hx hmain hinput
  have hstart : Books (Pi.single D.nextPacket (-1)) 0 D (D.getApacket.2.setTransport t y) :=
    (hget.trans hset).mono (add_zero _) (le_refl _)
  refine Outcome.bind (writeToMain_shift hset.sane (update_self ..) p) ?_
  rintro ⟨ok, D₁⟩ - hwrite
  dsimp only at hwrite ⊢
  rw [hp] at hwrite
  rcases hwrite with hpush | hput
  · refine Outcome.mono (setOutput_balanced hpush.sane t _).ensures fun D₂ h₂ => Or.inl ?_
    have hall := hstart.shift.trans (hpush.seq h₂)
    rwa [add_zero, zero_add, add_zero] at hall
  · refine Outcome.mono (setOutput_balanced hput.sane t _).ensures fun D₂ h₂ => Or.inr ?_
    exact ((hstart.trans hput).trans h₂).mono (by rw [add_zero, single_cancel]) (le_refl _)

/-- One step of `output_thread`. -/
lemma outputThread_arrives (hD : D.Sane) (hx : D.transports t = some x) :
    Ensures (D.outputThread t) (Arrives D) := by
  have hsame : D.getApacket.2.setTransport t x = D.getApacket.2 := by
    rw [setTransport, ← show D.getApacket.2.transports t = some x from hx, update_eq_self]
  have hquiet : ∀ {r : Except Stop Daemon},
      Balanced 0 0 (fun D' => D') D r (fun _ => True) → Ensures r (Arrives D) :=
    fun h => Outcome.mono h.ensures fun _ => Or.inr
  rw [outputThread, derefT_bind hx]
  split
  case h_1 =>
    exact arrives_write (p := { D.getApacket.1 with msg := syncPacket 1 (x.syncToken + 1) })
      (y := { x with syncToken := x.syncToken + 1 }) hD hx rfl rfl (by rfl)
      fun ok => if ok then .reading else .kickTest
  case h_2 =>
    dsimp only [getApacket]
    cases D.io.packet with
    | none =>
      have hget := Books.getApacket hD
      have hput := hget.trans (Books.putApacket hget.sane D.getApacket.1)
      have hnone : Books 0 0 D (D.getApacket.2.putApacket D.getApacket.1) :=
        hput.mono (single_cancel _) (le_refl _)
      exact hquiet (.next hnone (setOutput_balanced hnone.sane t _))
    | some q =>
      dsimp only
      split
      · trivial
      · have hwrite := arrives_write (p := { q with addr := D.nextPacket, len := 0, ptr := 0 }) hD
          hx rfl rfl (by rfl)
          fun ok => if ok then .reading else .kickTest
        rw [hsame] at hwrite
        exact hwrite
  case h_3 =>
    have hwrite := arrives_write (p := { D.getApacket.1 with msg := syncPacket 0 0 }) hD hx rfl rfl
      (by rfl) fun _ => .kickTest
    rw [hsame] at hwrite
    exact hwrite
  case h_4 => exact hquiet (setOutput_balanced hD t _)
  case h_5 =>
    split
    · exact hquiet (setOutput_balanced hD t _)
    · refine hquiet ((modifyT_balanced' hD t fun _ => by exact ⟨rfl, rfl⟩).seq fun D₁ h₁ _ => ?_)
      exact setOutput_balanced h₁.sane t _
  case h_6 =>
    exact hquiet ((kick_balanced hD t).seq fun D₁ h₁ _ => setOutput_balanced h₁.sane t _)
  case h_7 =>
    exact hquiet ((setOutput_balanced hD t _).seq fun D₁ h₁ _ => transportUnref_balanced h₁.sane t)
  case h_8 => trivial

/-- What an `input_thread` does: it releases a packet that was handed on, or keeps the books while
it closes the sockets of its transport. -/
def Returns (D D' : Daemon) : Prop :=
  (∃ c, Books 0 c D D') ∨ ∃ n, Shift (Pi.single n 1) 0 (Pi.single n 1) D D' ∧
    D'.released n = D.released n + 1

lemma released_putApacket (D : Daemon) (p : Apacket) :
    (D.putApacket p).released p.addr = D.released p.addr + 1 := by
  rw [released, released, putApacket, emit]
  exact List.countP_cons_of_pos (by simp [Obs.releases])

/-- A packet that was handed on is released, whatever it says. -/
lemma inputPacket_returns (hD : D.Sane) (hx : D.transports t = some x) (p : Apacket) :
    Ensures (D.inputPacket t p) fun D' =>
      Books (Pi.single p.addr 1) 0 D D' ∧ D'.released p.addr = D.released p.addr + 1 := by
  have hput : Books (Pi.single p.addr 1) 0 D (D.putApacket p) := .putApacket hD p
  rw [inputPacket, derefT_bind hx]
  split
  · split
    · rw [setInput, modifyT, derefT_bind (show (D.putApacket p).transports t = some x from hx)]
      have hset : Books 0 0 (D.putApacket p)
          ((D.putApacket p).setTransport t { x with input := .closeAll }) :=
        .setTransport hput.sane hx rfl rfl
      exact ⟨(hput.trans hset).mono (add_zero _) (le_refl _), released_putApacket D p⟩
    · split
      · have hset : Books 0 0 D (D.setTransport t { x with active := true }) :=
          .setTransport hD hx rfl rfl
        refine ⟨(hset.trans (.putApacket hset.sane p)).mono (zero_add _) (le_refl _), ?_⟩
        exact released_putApacket (D.setTransport t { x with active := true }) p
      · exact ⟨hput, released_putApacket D p⟩
  · split
    · have hnote : Books 0 0 D (D.emit (.toRemote t p)) := .quiet hD rfl
      refine ⟨(hnote.trans (.putApacket hnote.sane p)).mono (zero_add _) (le_refl _), ?_⟩
      refine (released_putApacket (D.emit (.toRemote t p)) p).trans ?_
      rfl
    · exact ⟨hput, released_putApacket D p⟩

/-- One step of `input_thread`. -/
lemma inputThread_returns (hD : D.Sane) (hx : D.transports t = some x) :
    Ensures (D.inputThread t) (Returns D) := by
  have hquiet : ∀ {c : ℕ} {r : Except Stop Daemon},
      Balanced 0 c (fun D' => D') D r (fun _ => True) → Ensures r (Returns D) :=
    fun h => h.imp (fun _ hb => Or.inl ⟨_, hb.1⟩) fun _ _ => trivial
  rw [inputThread, derefT_bind hx]
  split
  case h_1 =>
    split
    · split
      case h_1 p rest hp =>
        have hdrain := drain_shift hD hx hp
        refine Outcome.mono (inputPacket_returns hdrain.sane (update_self ..) p) ?_
        rintro D' ⟨hbooks, hreleased⟩
        have hall := hdrain.trans hbooks.shift
        rw [zero_add, zero_add, add_zero] at hall
        exact Or.inr ⟨p.addr, hall, hreleased⟩
      case h_2 =>
        split
        · trivial
        · exact hquiet (setInput_balanced hD t _)
    · split
      · trivial
      · exact hquiet (setInput_balanced hD t _)
  case h_2 =>
    refine hquiet ((closeAllFuel_balanced hD t _).bind 0 0 (fun D₁ h₁ _ => ?_) (add_zero _)
      (le_refl _))
    exact setInput_balanced h₁.sane t _
  case h_3 => exact hquiet (setInput_balanced hD t _)
  case h_4 =>
    split
    · exact hquiet (setInput_balanced hD t _)
    · refine hquiet (c := 0)
        ((modifyT_balanced' hD t fun _ => by exact ⟨rfl, rfl⟩).seq fun D₁ h₁ _ => ?_)
      exact setInput_balanced h₁.sane t _
  case h_5 =>
    exact hquiet (c := 0) ((kick_balanced hD t).seq fun D₁ h₁ _ => setInput_balanced h₁.sane t _)
  case h_6 =>
    exact hquiet (c := 0)
      ((setInput_balanced hD t _).seq fun D₁ h₁ _ => transportUnref_balanced h₁.sane t)
  case h_7 => trivial

/-! ## Callbacks -/

section Callbacks

variable {D D₀ : Daemon} {m : Moment} {e : Event} {k : FdeId} {ev : BitVec 16} {t : TAddr}

lemma Graph.allLocal (h : Graph ∅ D) : Listed D := by
  intro a ha
  obtain ⟨s, hs, -, hlocal⟩ := h.listed a ha
  exact ⟨s, hs, hlocal⟩

lemma Graph.recorded (h : Graph ∅ D) (t : TAddr) : Recorded t D := by
  intro x r s hx hr hs
  obtain ⟨q, hq, hrem, -⟩ := (h.records t _ (disconnectsOf_eq hx)).2 r hr
  cases hs.symm.trans hq
  exact hrem

/-- A packet of `t` is at hand: its callback was called, and there is one to read. -/
structure AtHand (k : FdeId) (ev : BitVec 16) (D : Daemon) (t : TAddr) (x : Atransport)
    (p : Apacket) (rest : List Apacket) : Prop where
  key : k = .transport t
  event : has ev fdeRead = true
  found : D.transports t = some x
  holds : D.holds x.transportSocket (.transportSocket t) = true
  queue : x.toMain = p :: rest

/-- How many packets the callback of an `fdevent` sends at most. -/
def places (D : Daemon) : FdeId → ℕ
  | .socket _ => 3
  | .transport t =>
    match D.transports t with
    | some { toMain := p :: _, .. } => D.answers p
    | _ => 0
  | .auth _ | .listener => 1
  | _ => 0

lemma places_le (D : Daemon) (k : FdeId) : D.places k ≤ 3 := by
  cases k with
  | transport t =>
    rw [places]
    split
    · exact (answers_le _ D).trans (by omega)
    · omega
  | socket a => exact le_refl _
  | auth t => exact (by omega : 1 ≤ 3)
  | listener => exact (by omega : 1 ≤ 3)
  | _ => exact Nat.zero_le _

lemma places_transport {rest : List Apacket} (hx : D.transports t = some x)
    (hp : x.toMain = p :: rest) : D.places (.transport t) = D.answers p := by
  obtain ⟨⟩ := x
  simp only at hp
  subst hp
  rw [places, hx]

/-- `transport_socket_events`. -/
lemma transportSocketEvents_turn (hD : D.Sane) (hg : Graph ∅ D) (hk : k = .transport t) :
    Outcome (D.transportSocketEvents ev t) (fun D' => Books 0 3 D D' ∨
      ∃ t x p rest, AtHand k ev D t x p rest ∧
        Books ((D.pop t x rest).kept p t) 2 (D.pop t x rest) D') (NotFull (D.places k) D) := by
  have hsame : Books 0 3 D D := (Books.refl hD).mono rfl (Nat.zero_le _)
  cases hx : D.transports t with
  | none =>
    rw [transportSocketEvents, derefT, hx]
    exact fun _ u h => by cases h
  | some x =>
    rw [transportSocketEvents, derefT_bind hx]
    split
    case isFalse => exact Or.inl hsame
    case isTrue hev =>
      split
      case isTrue hholds =>
        cases hmain : x.toMain with
        | nil => exact Or.inl hsame
        | cons p rest =>
          have hpop := pop_books hD hx hmain
          have hrec : Recorded t (D.pop t x rest) := (hg.recorded t).setTransport hx rfl
          have hlisted : Listed (D.pop t x rest) := hg.allLocal
          have hpacket := handlePacket_balanced (p := p) hpop.sane hrec hlisted
          refine Outcome.imp hpacket ?_ ?_
          · rintro D' ⟨hbooks, -⟩
            exact Or.inr ⟨t, x, p, rest, ⟨hk, hev, hx, hholds, hmain⟩,
              hbooks.mono rfl (answers_le p _)⟩
          · intro r hr hroom
            rw [hk, places_transport hx hmain] at hroom
            apply hr
            apply hpop.room
            rwa [Nat.zero_add]
      case isFalse =>
        split
        · exact fun _ u h => by cases h
        · exact Or.inl hsame

/-- A callback keeps the books, or takes a packet and hands it to `handle_packet`. -/
lemma callback_turn (h : Calling e D₀ m k ev) (hD : m.d.Sane) :
    Outcome (m.d.callback k ev) (fun D' => Books 0 3 m.d D' ∨
      ∃ t x p rest, AtHand k ev m.d t x p rest ∧
        Books ((m.d.pop t x rest).kept p t) 2 (m.d.pop t x rest) D')
      (NotFull (m.d.places k) m.d) := by
  have hg : Graph ∅ m.d := by
    have hpeers := h.wf.peers
    rw [h.quiet] at hpeers
    exact hpeers
  have hlift : ∀ {c : ℕ} {x : Except Stop Daemon}, c ≤ 3 →
      Balanced 0 c (fun D' => D') m.d x (fun _ => True) →
      Outcome x (fun D' => Books 0 3 m.d D' ∨ ∃ t x p rest, AtHand k ev m.d t x p rest ∧
        Books ((m.d.pop t x rest).kept p t) 2 (m.d.pop t x rest) D') (NotFull c m.d) := by
    intro c x hc hx
    exact hx.imp (fun D' hb => Or.inl (hb.1.mono rfl hc)) fun r hr => hr
  cases hk : k with
  | socket a =>
    obtain ⟨s, hs, hfd, -⟩ := h.wf.loop.socket a (hk ▸ h.installed (by rw [hk]; rfl))
    rw [← hk]
    rw [hk] at hlift ⊢
    refine hlift (le_refl _) (localSocketEventFunc_balanced hD (fun s' hs' => ?_) ev)
    cases hs.symm.trans hs'
    exact hfd
  | transport t => exact transportSocketEvents_turn hD hg rfl
  | auth t =>
    rw [hk] at hlift
    exact hlift (places_le m.d _) (adbAuthEvent_balanced hD ev t)
  | authListener =>
    rw [hk] at hlift
    exact hlift (places_le m.d _) (adbAuthListener_balanced hD)
  | registration =>
    rw [hk] at hlift
    exact hlift (places_le m.d _) (transportRegistrationFunc_balanced hD hg.recorded ev)
  | listener =>
    rw [hk] at hlift
    exact hlift (places_le m.d _) (ssListenerEventFunc_balanced hD ev)
  | jdwpControl =>
    rw [hk] at hlift
    exact hlift (places_le m.d _) (jdwpControlEvent_balanced hD h.wf.loop.kernel ev)
  | jdwpProcess i =>
    rw [hk] at hlift
    exact hlift (places_le m.d _) (jdwpProcessEvent_balanced hD ev i)
  | subproc => exact fun _ u h => by cases h

end Callbacks

/-! ## Steps -/

section Steps

variable {D D' : Daemon} {e : Event} {k : FdeId} {ev : BitVec 16} {t : TAddr} {x : Atransport}
  {p : Apacket} {rest : List Apacket}

/-- How many packets the callback of the step sends at most. -/
def need (e : Event) (D : Daemon) : ℕ :=
  match D.delivered e with
  | some (k, _) => D.places k
  | none => 0

/-- The step hands packet `p` of `t` to `handle_packet`. -/
def Hands (e : Event) (D : Daemon) (t : TAddr) (p : Apacket) : Prop :=
  ∃ ev rs x rest, D.delivered e = some (.transport t, ev, rs) ∧
    AtHand (.transport t) ev D t x p rest

/-- The packet is an `A_WRTE` for a socket with nothing queued, and the write fails. -/
def Fails (e : Event) (D : Daemon) (t : TAddr) (p : Apacket) : Prop :=
  p.msg.command = aWrte ∧ (D.transports t).any (·.online) = true ∧
    ∃ a s, D.findLocalSocket p.msg.arg1 = some a ∧ D.sockets a = some s ∧ s.ops.isFd = true ∧
      s.pkts = [] ∧ (writeLoop p.payload e.io.writes).2.1 = .failed

lemma incoming_pos (hD : D.Sane) (hx : D.transports t = some x) (hp : x.toMain = p :: rest) :
    0 < D.incoming p.addr := by
  have h := pop_incoming hD hx hp p.addr
  have hone : occurrences p.addr [p] = 1 := by simp [occurrences]
  omega

/-- `handle_packet` forgets the packet where the write fails, and nowhere else. -/
lemma forgets_iff {D₁ : Daemon} (honline : (D₁.transports t).any (·.online) =
    (D.transports t).any (·.online)) (hsockets : D₁.sockets = D.sockets)
    (hlist : D₁.localSocketList = D.localSocketList) (hwrites : D₁.io.writes = e.io.writes) :
    D₁.forgets p t = true ↔ Fails e D t p := by
  have hpayload : ({ p with len := p.msg.dataLength.toNat, ptr := 0 } : Apacket).remaining =
      p.payload := rfl
  have hdrops : ∀ a, D₁.drops a { p with len := p.msg.dataLength.toNat } = true ↔
      ∃ s, D.sockets a = some s ∧ s.ops.isFd = true ∧ s.pkts = [] ∧
        (writeLoop p.payload e.io.writes).2.1 = .failed := by
    intro a
    rw [drops, hsockets, hwrites, hpayload, Option.any_eq_true]
    simp only [Bool.and_eq_true, List.isEmpty_iff, decide_eq_true_iff, and_assoc]
  rw [forgets, honline, findLocalSocket, hlist, hsockets, Bool.and_eq_true, Bool.and_eq_true,
    decide_eq_true_iff, and_assoc, Fails]
  refine and_congr_right fun _ => and_congr_right fun _ => ?_
  constructor
  · intro hany
    obtain ⟨a, hfind, hdrop⟩ := (Option.any_eq_true _ _).mp hany
    obtain ⟨s, hs⟩ := (hdrops a).mp hdrop
    exact ⟨a, s, hfind, hs⟩
  · rintro ⟨a, s, hfind, hs⟩
    exact (Option.any_eq_true _ _).mpr ⟨a, hfind, (hdrops a).mpr ⟨s, hs⟩⟩

/-- The packet is taken from its queue, and given another place or forgotten. -/
def Taken (e : Event) (D : Daemon) (t : TAddr) (p : Apacket) (D' : Daemon) : Prop :=
  Fails e D t p ∧ Shift 0 (Pi.single p.addr (-1)) 0 D D' ∨
    ¬Fails e D t p ∧ Shift (Pi.single p.addr 1) (Pi.single p.addr (-1)) 0 D D'

lemma Taken.of_books {L : Loop FdeId} {I : Io} {c : ℕ} (hD : D.Sane) (hI : I.writes = e.io.writes)
    (hx : D.transports t = some x) (hp : x.toMain = p :: rest)
    (h : Books ((({ D with loop := L, io := I } : Daemon).pop t x rest).kept p t) c
      (({ D with loop := L, io := I } : Daemon).pop t x rest) D') : Taken e D t p D' := by
  have hsame : Books 0 0 D { D with loop := L, io := I } := .quiet hD rfl
  have hpop := hsame.then (pop_shift hsame.sane hx hp)
  have hall := hpop.trans h.shift
  rw [zero_add, add_zero, add_zero] at hall
  have hiff : (({ D with loop := L, io := I } : Daemon).pop t x rest).forgets p t = true ↔
      Fails e D t p := by
    refine forgets_iff ?_ rfl rfl hI
    rw [pop, setTransport_transports_self, hx]
    rfl
  by_cases hforgets : (({ D with loop := L, io := I } : Daemon).pop t x rest).forgets p t = true
  · refine Or.inl ⟨hiff.mp hforgets, ?_⟩
    rw [kept, hforgets] at hall
    exact hall
  · refine Or.inr ⟨fun hfail => hforgets (hiff.mpr hfail), ?_⟩
    rw [Bool.not_eq_true] at hforgets
    rwa [kept_of_not hforgets] at hall

/-- What a step does to the packets: it keeps its books, takes a packet from a transport, or is a
step of a transport thread. -/
inductive Turn (e : Event) (D D' : Daemon) : Prop
  | quiet (h : Shift 0 0 0 D D')
  | take (t : TAddr) (p : Apacket) (hands : Hands e D t p) (hin : 0 < D.incoming p.addr)
      (h : Taken e D t p D')
  | arrive (hact : ∃ t, e.action = .output t)
      (h : Shift (Pi.single D.nextPacket (-1)) (Pi.single D.nextPacket 1) 0 D D')
  | giveBack (n : ℕ) (h : Shift (Pi.single n 1) 0 (Pi.single n 1) D D')
      (hreleased : D'.released n = D.released n + 1)

lemma Turn.shift (h : Turn e D D') : ∃ g i k, Shift g i k D D' := by
  cases h with
  | quiet hs => exact ⟨_, _, _, hs⟩
  | take t p hands hin htaken =>
    rcases htaken with ⟨-, hs⟩ | ⟨-, hs⟩
    · exact ⟨_, _, _, hs⟩
    · exact ⟨_, _, _, hs⟩
  | arrive hact hs => exact ⟨_, _, _, hs⟩
  | giveBack n hs hreleased => exact ⟨_, _, _, hs⟩

lemma Turn.sane (h : Turn e D D') : D'.Sane := by
  obtain ⟨_, _, _, hs⟩ := h.shift
  exact hs.sane

lemma Turn.next (h : Turn e D D') : D.nextPacket ≤ D'.nextPacket := by
  obtain ⟨_, _, _, hs⟩ := h.shift
  exact hs.next

lemma AtHand.congr {L : Loop FdeId} {I : Io} (hin : L.inUse = D.loop.inUse)
    (h : AtHand k ev { D with loop := L, io := I } t x p rest) : AtHand k ev D t x p rest := by
  refine ⟨h.key, h.event, h.found, ?_, h.queue⟩
  have hholds := h.holds
  rw [Daemon.holds] at hholds ⊢
  rwa [← hin]

/-- `register_transport`: the new transport has no packets. -/
lemma registerTransport_shift (hD : D.Sane) (hmain : x.toMain = []) (hinput : x.toInput = []) :
    Shift 0 0 0 D (D.registerTransport x) := by
  have hin : ∀ n, (D.registerTransport x).incoming n = D.incoming n := by
    intro n
    refine (Heap.total_alloc x).trans ?_
    rw [hmain]
    rfl
  have hout : ∀ n, (D.registerTransport x).outgoing n = D.outgoing n := by
    intro n
    refine (Heap.total_alloc x).trans ?_
    rw [hinput]
    rfl
  refine ⟨⟨hD.fresh, fun u y hu => ?_, hD.typed, hD.plain, hD.noProcess⟩, fun n => ?_, fun n => ?_,
    fun n => ?_, le_refl _⟩
  · by_cases hut : u = D.nextTAddr
    · rw [hut]
      exact Nat.lt_succ_self _
    · exact Nat.lt_succ_of_lt (hD.freshT u y ((update_of_ne hut ..).symm.trans hu))
  · rw [Pi.zero_apply, add_zero]
    rfl
  · rw [hin, Pi.zero_apply, add_zero]
  · have hhanded : (D.registerTransport x).handedOn n = D.handedOn n := rfl
    rw [hout, hhanded, Pi.zero_apply, add_zero]

lemma touchFde_balanced (hD : D.Sane) (k : FdeId) :
    Balanced 0 0 (fun _ => D) D (D.touchFde k) fun _ => True := by
  cases k with
  | socket a => exact (deref_balanced hD a).seq fun _ _ _ => .ok (.refl hD) trivial
  | transport t => exact (derefT_balanced hD t).seq fun _ _ _ => .ok (.refl hD) trivial
  | auth t => exact (derefT_balanced hD t).seq fun _ _ _ => .ok (.refl hD) trivial
  | _ => exact .ok (.refl hD) trivial

/-- `fdevent_process` only marks what is pending. -/
lemma fdeventProcess_balanced (hD : D.Sane) (batch : List (ℕ × EpollMask)) :
    Balanced 0 0 (fun D' => D') D (fdeventProcess batch D) fun _ => True := by
  induction batch generalizing D with
  | nil => exact .ok (.refl hD) trivial
  | cons b batch ih =>
    obtain ⟨n, rep⟩ := b
    rw [fdeventProcess]
    split
    · exact .error (by simp)
    case h_2 mask k _ =>
      split
      · refine (touchFde_balanced hD k).seq fun _ _ _ => ?_
        have hreport : Books 0 0 D { D with loop := D.loop.fdeventReport k rep } := .quiet hD rfl
        exact .next hreport (ih hreport.sane)
      · exact .error (by simp)

/-- A callback of the main loop. -/
lemma dispatch_turn (h : Wf { d := D }) (hD : D.Sane) (hact : e.action = .dispatch) :
    Outcome (D.step e) (Turn e D) (NotFull (D.need e) D) := by
  have hsane : ({ D with io := e.io } : Daemon).Sane := (Books.quiet hD (by rfl)).sane
  have henv : Effect e D { d := D } _ := .env { d := D } e.io D.nextPacket
  obtain ⟨m', -, -, ⟨L, I, hd⟩, hcase⟩ := dispatch_dispatches (henv.wf h) rfl hact
  have hquiet : Books 0 0 D m'.d := by
    rw [hd]
    exact .quiet hD rfl
  have hfull : ∀ {c r}, NotFull c m'.d r → NotFull c D r := by
    intro c r hr hroom
    refine hr (hquiet.room ?_)
    rwa [Nat.zero_add]
  have hstep : D.step e = Daemon.dispatch { D with io := e.io } := by
    rw [step, hact]
    rfl
  rw [hstep]
  rcases hcase with ⟨k, ev, hcall, hx⟩ | hx | ⟨r, hx, -, hr⟩
  · have hturn := callback_turn hcall hquiet.sane
    have hneed : D.need e = m'.d.places k := by
      rw [need, hcall.delivered, hd]
      rfl
    rw [← hx] at hturn
    refine Outcome.imp hturn ?_ fun r hr => hneed ▸ hfull hr
    rintro D' (hbooks | ⟨t, x, p, rest, hat, hbooks⟩)
    · exact .quiet (hquiet.trans hbooks).shift
    · have hin := hcall.inUse
      have hwrites := hcall.writes
      have hdelivered := hcall.delivered
      rw [hat.key] at hdelivered
      rw [hd] at hat hin hwrites hbooks
      have hat' := hat.congr hin
      rw [hat.key] at hat'
      exact .take t p ⟨_, _, x, rest, hdelivered, hat'⟩ (incoming_pos hD hat.found hat.queue)
        (.of_books hD hwrites hat.found hat.queue hbooks)
  · change Daemon.dispatch { D with io := e.io } = _ at hx
    rw [hx]
    exact .ok (.quiet hquiet.shift)
  · change Daemon.dispatch { D with io := e.io } = _ at hx
    rw [hx]
    exact .error fun _ => hr

/-- One step of the daemon. -/
lemma step_turn (h : Wf { d := D }) (hD : D.Sane) : Ensures (D.step e) (Turn e D) := by
  have hio : Books 0 0 D { D with io := e.io } := .quiet hD rfl
  have hledger : ∀ D', Books 0 0 { D with io := e.io } D' → Turn e D D' :=
    fun D' hbooks => .quiet (hio.trans hbooks).shift
  cases hact : e.action with
  | dispatch => exact (dispatch_turn h hD hact).imp (fun _ ht => ht) fun _ _ => trivial
  | epollWait batch =>
    rw [step, hact, act]
    split
    case isFalse => trivial
    case isTrue => exact (fdeventProcess_balanced hio.sane batch).ensures.mono hledger
  | output t =>
    rw [step, hact, act]
    split
    case isFalse => trivial
    case isTrue hx =>
      obtain ⟨x, hx⟩ := Option.isSome_iff_exists.mp hx
      refine Outcome.mono (outputThread_arrives hio.sane hx) ?_
      rintro D' (harrive | hquiet)
      · exact .arrive ⟨t, hact⟩ (hio.then harrive)
      · exact hledger _ hquiet
  | input t =>
    rw [step, hact, act]
    split
    case isFalse => trivial
    case isTrue hx =>
      obtain ⟨x, hx⟩ := Option.isSome_iff_exists.mp hx
      refine Outcome.mono (inputThread_returns hio.sane hx) ?_
      rintro D' (⟨c, hquiet⟩ | ⟨n, hback, hreleased⟩)
      · exact .quiet (hio.trans hquiet).shift
      · exact .giveBack n (hio.then hback) hreleased
  | registerSocket serial =>
    rw [step, hact, act, registerSocketTransport]
    refine Outcome.bind ((takeFd_balanced hio.sane _).imp (fun _ hb => hb.1) fun _ _ => trivial) ?_
    rintro ⟨fd, D₁⟩ - hbooks
    dsimp only at hbooks ⊢
    cases fd with
    | none => trivial
    | some n =>
      exact Turn.quiet ((hio.trans hbooks).then (registerTransport_shift hbooks.sane rfl rfl))
  | registerUsb =>
    rw [step, hact, act, registerUsbTransport]
    exact Turn.quiet (hio.then (registerTransport_shift hio.sane rfl rfl))
  | openFd =>
    rw [step, hact, act]
    refine Outcome.bind ((takeFd_balanced hio.sane _).imp (fun _ hb => hb.1) fun _ _ => trivial) ?_
    rintro ⟨fd, D₁⟩ - hbooks
    dsimp only at hbooks ⊢
    cases fd with
    | none => trivial
    | some n => exact hledger _ hbooks
  | closeFd n =>
    rw [step, hact, act]
    split
    case isFalse => trivial
    case isTrue => exact hledger _ (.quiet hio.sane rfl)

/-- The packet that is handed over is taken. -/
lemma taken_of_hands (h : Wf { d := D }) (hD : D.Sane) (hands : Hands e D t p)
    (hs : D.step e = .ok D') : 0 < D.incoming p.addr ∧ Taken e D t p D' := by
  obtain ⟨ev, rs, x, rest, hdelivered, hat⟩ := hands
  obtain ⟨L, hL, hcallback⟩ := callback_of_delivered hdelivered nofun hs
  refine ⟨incoming_pos hD hat.found hat.queue, ?_⟩
  set D₁ : Daemon := { D with loop := L, io := { e.io with reads := rs } }
  have hD₁ : D₁.Sane := (Books.quiet hD (by rfl)).sane
  have hg : Graph ∅ D₁ := h.peers
  have hholds : D₁.holds x.transportSocket (.transportSocket t) = true := by
    have hholds := hat.holds
    rw [Daemon.holds] at hholds ⊢
    rwa [hL]
  have hpop := pop_books hD₁ hat.found hat.queue
  have hpacket := handlePacket_balanced (p := p) hpop.sane
    ((hg.recorded t).setTransport hat.found rfl) hg.allLocal
  refine .of_books hD (by rfl) hat.found hat.queue (hpacket.books ?_)
  change D₁.transportSocketEvents ev t = _ at hcallback
  rw [transportSocketEvents, derefT_bind (show D₁.transports t = some x from hat.found),
    if_pos hat.event, if_pos hholds, hat.queue] at hcallback
  exact hcallback

/-! ## Runs -/

/-- Nothing is there when the daemon starts. -/
lemma sane_adbMain {config : Config} {fds : List ℕ} {inUse : ℕ → Bool}
    (h : adbMain config fds inUse = .ok D) : D.Sane := by
  obtain ⟨L, O, I, rfl⟩ := adbMain_eq h
  refine ⟨?_, ?_, ?_, ?_, rfl⟩
  · intro a s hs
    cases hs
  · intro t x hx
    cases hx
  · intro a s p hs
    cases hs
  · intro a s hs
    cases hs

lemma Reachable.sane (h : Reachable D) : D.Sane := by
  obtain ⟨config, fds, inUse, D₀, es, hmain, hrun⟩ := h
  have hkept : ∀ e D D', (Wf { d := D } ∧ D.Sane) → True → D.step e = .ok D' →
      Wf { d := D' } ∧ D'.Sane := by
    rintro e D D' ⟨hwf, hsane⟩ - hs
    exact ⟨wf_of_step hwf hs, (Outcome.success (step_turn hwf hsane) hs).sane⟩
  exact (run_invariant hkept ⟨wf_adbMain hmain, sane_adbMain hmain⟩ along_true hrun).2

end Steps

end Daemon

end Adbd
