import Adbd.Effects.Linked
import Adbd.Properties.DrainPeers
import Adbd.Properties.PeerLinks
import Adbd.Properties.Teardown

/-!
# The outgoing path

What the main loop passes to `send_packet` for a transport goes through a socket pair to
`input_thread`, which drops everything until it has read the echo of the `A_SYNC` that
`output_thread` sent first, and ends at the echo of an `A_SYNC` with `arg0 = 0`.  The first
packet in the pair is that echo, since the main loop sends nothing for a transport it has not
heard of; so nothing is dropped that should be written.

All of this rests on the pair.  The number of the end that `input_thread` reads is closed twice
when a TCP transport goes, and if the second `adb_close` hits a pair in use, what is in the pair
is lost.
-/

namespace Adbd.OutgoingPath

open Function Relation Transition FlagWord Daemon Teardown PeerLinks

/-! ## What goes in and what comes out -/

/-- The packets passed to `send_packet` for `t`, in order. -/
def sentTo (t : TAddr) (os : List Obs) : List Apacket :=
  (os.filterMap fun
    | .sent u _ p => if u = t then some p else none
    | _ => none).reverse

/-- The packets `input_thread` of `t` handed to `write_to_remote`, in order. -/
def writtenTo (t : TAddr) (os : List Obs) : List Apacket :=
  (os.filterMap fun
    | .toRemote u p => if u = t then some p else none
    | _ => none).reverse

/-- The packets that are for the remote, `A_SYNC` not being one of them. -/
def data (ps : List Apacket) : List Apacket := ps.filter fun p => p.msg.command ≠ aSync

/-- What was sent before the first `A_SYNC` with `arg0 = 0`. -/
def beforeFinal (ps : List Apacket) : List Apacket := ps.takeWhile fun p => !p.isFinalSync

/-- Nothing is lost on the way out. -/
structure NoLoss (t : TAddr) (D : Daemon) : Prop where
  /-- Only what was sent is written, in order and once, and no `A_SYNC`. -/
  inOrder : writtenTo t D.trace <+: data (sentTo t D.trace)
  /-- What was sent and not read yet is still in the pair. -/
  inFlight : ∀ x, D.transports t = some x → ∃ taken, sentTo t D.trace = taken ++ x.toInput ∧
    writtenTo t D.trace = data taken
  /-- At the end, only what was sent after the final `A_SYNC` is missing. -/
  complete : (∀ x, D.transports t = some x → x.input ≠ .reading) →
    data (beforeFinal (sentTo t D.trace)) <+: writtenTo t D.trace

/-! ## The line -/

/-- The part of a transport that its line depends on; a transport is dormant until the main loop
hears of it. -/
structure Look where
  toMain : List Apacket
  toInput : List Apacket
  syncToken : UInt32
  active : Bool
  input : InputPc
  output : OutputPc
  dormant : Bool

def look (x : Atransport) : Look :=
  ⟨x.toMain, x.toInput, x.syncToken, x.active, x.input, x.output,
    decide (x.connectionState = .offline ∧ x.disconnects = [])⟩

/-- The same, whether dormant or not. -/
def Look.roused (l : Look) : Look := { l with dormant := true }

/-- The main loop has not read the first packet of the transport: it has not been written, or it
is at the front. -/
def Look.Unheard (l : Look) : Prop :=
  l.toMain = [] ∧ l.output ≠ .reading ∧ l.output ≠ .sendSync ∨
    ∃ p rest, l.toMain = p :: rest ∧ p.msg = syncPacket 1 l.syncToken ∧ l.output ≠ .start

/-- The packet that makes `input_thread` active. -/
def Opens (token : UInt32) (p : Apacket) : Prop :=
  p.msg.command = aSync ∧ p.msg.arg0 ≠ 0 ∧ p.msg.arg1 = token

/-- A line in use: `S` has been sent, `W` written and `taken` read. -/
structure Flows (S W taken : List Apacket) (l : Look) : Prop where
  sent : S = taken ++ l.toInput
  written : W = data taken
  first : ∃ p rest, S = p :: rest ∧ Opens l.syncToken p
  active : taken ≠ [] → l.active = true
  reading : l.input = .reading → ∀ p ∈ taken, p.isFinalSync = false
  left : l.input ≠ .reading → ∃ before p, taken = before ++ [p] ∧ p.isFinalSync = true ∧
    ∀ q ∈ before, q.isFinalSync = false

/-- The line of a transport: whether its address is still to be handed out, whether it waits for
its registration, which packet of it is being handled, whether its `auth_fde` is linked, what was
sent and written, and what the transport looks like. -/
inductive Line (unborn waiting : Bool) (handled : Option (Option Apacket)) (linked : Prop)
    (S W : List Apacket) : Option Look → Prop
  | absent (hS : S = []) (hW : W = []) (hl : ¬linked) (hh : handled = none) :
    Line unborn waiting handled linked S W none
  | silent (l : Look) (hS : S = []) (hW : W = []) (hl : ¬linked) (hh : handled = none)
      (hin : l.toInput = []) (hdorm : l.dormant = true)
      (hread : l.input = .reading ∨ waiting = true) (hmain : l.Unheard) :
    Line unborn waiting handled linked S W (some l)
  | greeting (l : Look) (q : Apacket) (hS : S = []) (hW : W = []) (hl : ¬linked)
      (hh : handled = some (some q)) (hq : q.msg = syncPacket 1 l.syncToken)
      (hin : l.toInput = []) (hdorm : l.dormant = true) (hread : l.input = .reading)
      (hwait : waiting = false) (hout : l.output ≠ .start) :
    Line unborn waiting handled linked S W (some l)
  | flowing (l : Look) (taken : List Apacket) (h : Flows S W taken l) (hwait : waiting = false)
      (hout : l.output ≠ .start) : Line unborn waiting handled linked S W (some l)
  | gone (hborn : unborn = false) (hS : S ≠ []) (hW : W = data (beforeFinal S)) :
    Line unborn waiting handled linked S W none

/-- The packet of `t` that is being handled. -/
def handledOf (t : TAddr) (H : Option (TAddr × Option Apacket)) : Option (Option Apacket) :=
  (H.filter fun h => h.1 = t).map Prod.snd

/-- The line of `t` in the moment `m`. -/
def LineOf (t : TAddr) (m : Moment) : Prop :=
  Line (m.d.nextTAddr ≤ t) ((t, .register) ∈ m.d.registration) (handledOf t m.handling)
    (AuthLinked t m.d.loop) (sentTo t m.d.trace) (writtenTo t m.d.trace)
    ((m.d.transports t).map look)

/-! ## Lists of packets -/

section Lists

variable {t u : TAddr} {os : List Obs} {o : Obs} {p : Apacket} {via : Option Addr}
  {ps taken rest : List Apacket}

/-- Observations that are no packet of `t`. -/
def Silent (t : TAddr) : Obs → Prop
  | .sent u _ _ => u ≠ t
  | .toRemote u _ => u ≠ t
  | _ => True

lemma sentTo_cons (h : Silent t o) : sentTo t (o :: os) = sentTo t os := by
  rw [sentTo, sentTo, List.filterMap_cons]
  cases o <;> simp_all [Silent]

lemma writtenTo_cons (h : Silent t o) : writtenTo t (o :: os) = writtenTo t os := by
  rw [writtenTo, writtenTo, List.filterMap_cons]
  cases o <;> simp_all [Silent]

lemma sentTo_append {l : List Obs} (h : ∀ o ∈ l, Silent t o) :
    sentTo t (l ++ os) = sentTo t os := by
  induction l with
  | nil => rfl
  | cons o l ih =>
    rw [List.cons_append, sentTo_cons (h o List.mem_cons_self)]
    exact ih fun o ho => h o (List.mem_cons_of_mem _ ho)

lemma writtenTo_append {l : List Obs} (h : ∀ o ∈ l, Silent t o) :
    writtenTo t (l ++ os) = writtenTo t os := by
  induction l with
  | nil => rfl
  | cons o l ih =>
    rw [List.cons_append, writtenTo_cons (h o List.mem_cons_self)]
    exact ih fun o ho => h o (List.mem_cons_of_mem _ ho)

lemma sentTo_sent : sentTo t (.sent t via p :: os) = sentTo t os ++ [p] := by
  simp [sentTo]

lemma writtenTo_sent : writtenTo t (.sent u via p :: os) = writtenTo t os := by
  simp [writtenTo]

lemma writtenTo_toRemote : writtenTo t (.toRemote t p :: os) = writtenTo t os ++ [p] := by
  simp [writtenTo]

lemma data_append : data (taken ++ rest) = data taken ++ data rest := List.filter_append ..

/-- What is before the final packet is all there is before it. -/
lemma beforeFinal_eq (h : ∀ q ∈ taken, q.isFinalSync = false) (hp : p.isFinalSync = true) :
    beforeFinal (taken ++ p :: rest) = taken := by
  rw [beforeFinal, List.takeWhile_append_of_pos fun q hq => by rw [h q hq]; rfl,
    List.takeWhile_cons_of_neg (by rw [hp]; decide), List.append_nil]

lemma data_final (hp : p.isFinalSync = true) : data (taken ++ [p]) = data taken := by
  have hsync : p.msg.command = aSync := by
    rw [Apacket.isFinalSync, Bool.and_eq_true] at hp
    exact of_decide_eq_true hp.1
  rw [data_append]
  simp [data, hsync]

end Lists

/-! ## Changes elsewhere -/

section Frames

variable {t u : TAddr} {m m' : Moment} {x x' : Atransport} {q : Apacket}

lemma handledOf_self {o : Option Apacket} : handledOf t (some (t, o)) = some o := by
  simp [handledOf]

lemma handledOf_of_ne {o : Option Apacket} (h : u ≠ t) : handledOf t (some (u, o)) = none := by
  simp [handledOf, h]

lemma handledOf_eq {o : Option Apacket} :
    handledOf t m.handling = some o ↔ m.handling = some (t, o) := by
  cases h : m.handling with
  | none => simp [handledOf]
  | some p =>
    obtain ⟨v, o'⟩ := p
    by_cases hv : v = t
    · simp [handledOf, hv]
    · simp [handledOf, hv]

lemma handledOf_serving (h : m.Serving t) :
    ∃ p, handledOf t m.handling = some (some p) ∧ p.msg.command ≠ aSync := by
  obtain ⟨p, hp, hcmd⟩ := h
  exact ⟨p, handledOf_eq.mpr hp, hcmd⟩

lemma not_idle (hidle : m.handling = none) : ¬m.Serving t := by
  rintro ⟨p, hp, -⟩
  rw [hidle] at hp
  cases hp

/-- Only the packet that opens the line is handled before something is sent. -/
lemma syncPacket_command {token : UInt32} (hq : q.msg = syncPacket 1 token) :
    q.msg.command = aSync := by
  rw [hq]
  rfl

lemma eq_of_roused {l l' : Look} (h : l'.roused = l.roused) :
    l'.toMain = l.toMain ∧ l'.toInput = l.toInput ∧ l'.syncToken = l.syncToken ∧
      l'.active = l.active ∧ l'.input = l.input ∧ l'.output = l.output := by
  simpa [Look.roused] using h

/-- Nothing is handled of a transport that the main loop has not heard of. -/
lemma not_serving (hh : handledOf t m.handling = none) : ¬m.Serving t := by
  intro hserve
  obtain ⟨p, hp, -⟩ := handledOf_serving hserve
  rw [hh] at hp
  cases hp

lemma not_serving_sync {token : UInt32} (hh : handledOf t m.handling = some (some q))
    (hq : q.msg = syncPacket 1 token) : ¬m.Serving t := by
  intro hserve
  obtain ⟨p, hp, hcmd⟩ := handledOf_serving hserve
  rw [hh] at hp
  cases hp
  exact hcmd (syncPacket_command hq)

/-- What the line of `t` depends on, the transport itself aside, is the same. -/
structure Aside (t : TAddr) (m m' : Moment) : Prop where
  next : m'.d.nextTAddr = m.d.nextTAddr
  waiting : (t, .register) ∈ m'.d.registration ↔ (t, .register) ∈ m.d.registration
  handled : handledOf t m'.handling = handledOf t m.handling
  linked : AuthLinked t m'.d.loop → AuthLinked t m.d.loop ∨ m.Serving t
  sent : sentTo t m'.d.trace = sentTo t m.d.trace
  written : writtenTo t m'.d.trace = writtenTo t m.d.trace

lemma Aside.waiting_eq (h : Aside t m m') :
    decide ((t, .register) ∈ m'.d.registration) = decide ((t, .register) ∈ m.d.registration) :=
  decide_eq_decide.mpr h.waiting

/-- The line does not depend on anything else. -/
lemma LineOf.congr (h : LineOf t m) (hT : m'.d.transports t = m.d.transports t)
    (ha : Aside t m m') : LineOf t m' := by
  rw [LineOf, ha.next, ha.waiting_eq, ha.handled, ha.sent, ha.written, hT]
  have hl := ha.linked
  rw [LineOf] at h
  cases hx : m.d.transports t with
  | none =>
    rw [hx] at h
    cases h with
    | absent hS hW hln hh =>
      exact .absent hS hW (fun hl' => (hl hl').elim hln (not_serving hh)) hh
    | gone hborn hS hW => exact .gone hborn hS hW
  | some x =>
    rw [hx, Option.map_some] at h
    cases h with
    | silent l hS hW hln hh hin hdorm hread hunheard =>
      exact .silent _ hS hW (fun hl' => (hl hl').elim hln (not_serving hh)) hh hin hdorm hread
        hunheard
    | greeting l q hS hW hln hh hq hin hdorm hread hwait hout =>
      exact .greeting _ q hS hW (fun hl' => (hl hl').elim hln (not_serving_sync hh hq)) hh hq
        hin hdorm hread hwait hout
    | flowing l taken h hwait hout => exact .flowing _ taken h hwait hout

/-- Assigning to fields of a transport that its line does not depend on. -/
lemma LineOf.assign (h : LineOf t m) (hx : m.d.transports u = some x)
    (hT : m'.d.transports = update m.d.transports u (some x'))
    (hlook : (look x').roused = (look x).roused)
    (hdorm : u = t → (look x).dormant = true → (look x').dormant = true ∨ m.Serving t)
    (ha : Aside t m m') : LineOf t m' := by
  by_cases hut : u = t
  · subst hut
    obtain ⟨hmain, hin, htoken, hactive, hinput, houtput⟩ := eq_of_roused hlook
    have hl := ha.linked
    rw [LineOf, ha.next, ha.waiting_eq, ha.handled, ha.sent, ha.written, hT,
      update_self, Option.map_some]
    rw [LineOf, hx, Option.map_some] at h
    generalize look x = l at *
    generalize look x' = l' at *
    cases h with
    | silent _ hS hW hln hh hin' hdorm' hread hunheard =>
      refine .silent l' hS hW (fun hl' => (hl hl').elim hln (not_serving hh)) hh
        (hin.trans hin') ((hdorm rfl hdorm').resolve_right (not_serving hh)) (hinput ▸ hread) ?_
      rw [Look.Unheard, hmain, houtput, htoken]
      exact hunheard
    | greeting _ q hS hW hln hh hq hin' hdorm' hread hwait hout =>
      have hno := not_serving_sync hh hq
      exact .greeting l' q hS hW (fun hl' => (hl hl').elim hln hno) hh (htoken ▸ hq)
        (hin.trans hin') ((hdorm rfl hdorm').resolve_right hno) (hinput ▸ hread) hwait
        (houtput ▸ hout)
    | flowing _ taken h hwait hout =>
      refine .flowing l' taken ⟨hin ▸ h.sent, h.written, htoken ▸ h.first, ?_, ?_, ?_⟩ hwait
        (houtput ▸ hout)
      · rw [hactive]
        exact h.active
      · rw [hinput]
        exact h.reading
      · rw [hinput]
        exact h.left
  · refine h.congr ?_ ha
    rw [hT, update_of_ne (Ne.symm hut)]

/-- What happens to another transport. -/
lemma LineOf.elsewhere (h : LineOf t m) (hut : u ≠ t) {z : Option Atransport}
    (hT : m'.d.transports = update m.d.transports u z) (ha : Aside t m m') : LineOf t m' := by
  refine h.congr ?_ ha
  rw [hT, update_of_ne (Ne.symm hut)]

end Frames

/-! ## Sending -/

section Sending

variable {t : TAddr} {m m' : Moment} {x : Atransport} {p : Apacket}

/-- A dormant transport has no streams, so nothing can be sent to it of one's own accord. -/
lemma not_maySend (h : Wf m) (hx : m.d.transports t = some x) (hdorm : (look x).dormant = true)
    (hh : handledOf t m.handling = none) : ¬m.MaySend t := by
  obtain ⟨hstate, hd⟩ := of_decide_eq_true hdorm
  rintro (⟨q, hq⟩ | ⟨r, s, hs, hrem, ht⟩ | ⟨-, y, hy, hon⟩)
  · rw [handledOf_eq.mpr hq] at hh
    cases hh
  · obtain ⟨u, l, hu, hl, hr⟩ := h.peers.linked r s hs hrem
    rw [ht, Option.some.injEq] at hu
    subst hu
    rw [disconnectsOf_eq hx, Option.some.injEq] at hl
    rw [← hl, hd] at hr
    cases hr
  · rw [hx, Option.some.injEq] at hy
    exact hon (hy ▸ hstate)

/-- The remote end of a stream keeps its transport awake. -/
lemma not_dormant {r : Addr} {q : Asocket} (h : Wf m) (hx : m.d.transports t = some x)
    (hq : m.d.sockets r = some q) (hrem : q.ops = .remote) (ht : q.transport = some t) :
    (look x).dormant = false := by
  by_contra hdorm
  rw [Bool.not_eq_false] at hdorm
  obtain ⟨-, hd⟩ := of_decide_eq_true hdorm
  obtain ⟨u, l, hu, hl, hr⟩ := h.peers.linked r q hq hrem
  rw [ht, Option.some.injEq] at hu
  subst hu
  rw [disconnectsOf_eq hx, Option.some.injEq] at hl
  rw [← hl, hd] at hr
  cases hr

/-- A packet more: the first is the echo of the packet that opens the line. -/
lemma LineOf.send (h : LineOf t m) (hwf : Wf m) (hx : m.d.transports t = some x)
    (hmay : m.MaySend t)
    (hecho : ∀ q, m.handling = some (t, some q) → q.msg.command = aSync →
      (look x).dormant = true → p = stamp q)
    (hT : m'.d.transports = update m.d.transports t
      (some { x with toInput := x.toInput ++ [p] }))
    (hN : m'.d.nextTAddr = m.d.nextTAddr) (hR : m'.d.registration = m.d.registration)
    (hsent : sentTo t m'.d.trace = sentTo t m.d.trace ++ [p])
    (hwritten : writtenTo t m'.d.trace = writtenTo t m.d.trace) : LineOf t m' := by
  rw [LineOf, hN, hR, hsent, hwritten, hT, update_self, Option.map_some,
    show look { x with toInput := x.toInput ++ [p] } =
      { look x with toInput := (look x).toInput ++ [p] } from rfl]
  rw [LineOf, hx, Option.map_some] at h
  have hnone := not_maySend hwf hx
  generalize look x = l at *
  cases h with
  | silent _ hS hW hln hh hin hdorm => exact absurd hmay (hnone hdorm hh)
  | greeting _ q hS hW hln hh hq hin hdorm hread hwait hout =>
    have hp := hecho q (handledOf_eq.mp hh) (syncPacket_command hq) hdorm
    refine .flowing _ [] ⟨?_, hW, ⟨p, [], ?_, ?_⟩, fun hno => absurd rfl hno, fun _ => ?_,
      fun hno => absurd hread hno⟩ hwait hout
    · rw [hS, hin]
      rfl
    · rw [hS]
      rfl
    · rw [hp, Opens]
      show q.msg.command = _ ∧ q.msg.arg0 ≠ 0 ∧ q.msg.arg1 = _
      rw [hq]
      exact ⟨rfl, show (1 : UInt32) ≠ 0 by decide, rfl⟩
    · intro q' hq'
      cases hq'
  | flowing _ taken h hwait hout =>
    refine .flowing _ taken ⟨?_, h.written, ?_, h.active, h.reading, h.left⟩ hwait hout
    · rw [h.sent, List.append_assoc]
    · obtain ⟨p₀, rest, hS, hopens⟩ := h.first
      exact ⟨p₀, rest ++ [p], by rw [hS, List.cons_append], hopens⟩

/-- A packet for any transport. -/
lemma LineOf.sent (h : LineOf t m) (hwf : Wf m) {u : TAddr} {via : Option Addr} {os : List Obs}
    (hx : m.d.transports u = some x) (hmay : m.MaySend u)
    (hecho : ∀ q, m.handling = some (u, some q) → q.msg.command = aSync →
      (look x).dormant = true → p = stamp q)
    (hT : m'.d.transports = update m.d.transports u
      (some { x with toInput := x.toInput ++ [p] }))
    (htrace : m'.d.trace = .sent u via p :: os) (hsent : sentTo t os = sentTo t m.d.trace)
    (hwritten : writtenTo t os = writtenTo t m.d.trace)
    (hN : m'.d.nextTAddr = m.d.nextTAddr) (hR : m'.d.registration = m.d.registration)
    (hH : m'.handling = m.handling)
    (hl : AuthLinked t m'.d.loop → AuthLinked t m.d.loop ∨ m.Serving t) : LineOf t m' := by
  by_cases hut : u = t
  · subst hut
    refine h.send hwf hx hmay hecho hT hN hR ?_ ?_
    · rw [htrace, sentTo_sent, hsent]
    · rw [htrace, writtenTo_sent, hwritten]
  · refine h.elsewhere hut hT ⟨hN, by rw [hR], by rw [hH], hl, ?_, ?_⟩
    · rw [htrace, sentTo_cons (o := .sent u via p) hut, hsent]
    · rw [htrace, writtenTo_sent, hwritten]

/-- A packet on behalf of a stream. -/
lemma LineOf.ofStream (h : LineOf t m) (hwf : Wf m) {u : TAddr} {r : Addr} {q s : Asocket}
    {via : Option Addr} {os : List Obs} (hto : m.SendsTo u x r q p s)
    (hT : m'.d.transports = update m.d.transports u
      (some { x with toInput := x.toInput ++ [p] }))
    (htrace : m'.d.trace = .sent u via p :: os) (hsent : sentTo t os = sentTo t m.d.trace)
    (hwritten : writtenTo t os = writtenTo t m.d.trace)
    (hN : m'.d.nextTAddr = m.d.nextTAddr) (hR : m'.d.registration = m.d.registration)
    (hH : m'.handling = m.handling)
    (hl : AuthLinked t m'.d.loop → AuthLinked t m.d.loop ∨ m.Serving t) : LineOf t m' := by
  refine h.sent hwf hto.alive (.inr (.inl ⟨r, q, hto.live, hto.remote, hto.transport⟩))
    (fun _ _ _ hdorm => ?_) hT htrace hsent hwritten hN hR hH hl
  have hawake := not_dormant hwf hto.alive hto.live hto.remote hto.transport
  exact absurd (hawake.symm.trans hdorm) (by decide)

end Sending

/-! ## The threads -/

section Threads

variable {t : TAddr} {x y : Atransport} {D : Daemon} {L M : Loop FdeId}
  {R S : List (TAddr × RegAction)} {os : List Obs} {packet : Option Apacket}

lemma Kick.silent (h : Kick t x L y M os) {o : Obs} (ho : o ∈ os) (u : TAddr) : Silent u o := by
  cases h with
  | idle =>
    rw [List.mem_singleton] at ho
    rw [ho]
    trivial
  | shut n own =>
    rw [List.mem_cons, List.mem_singleton] at ho
    rcases ho with rfl | rfl <;> trivial

lemma CloseT.silent (h : CloseT t x L M os) {o : Obs} (ho : o ∈ os) (u : TAddr) :
    Silent u o := by
  cases h with
  | usb =>
    rw [List.mem_singleton] at ho
    rw [ho]
    trivial
  | loc own =>
    rw [List.mem_cons, List.mem_singleton] at ho
    rcases ho with rfl | rfl <;> trivial

lemma Unref.silent (h : Unref t x L R y M S os) {o : Obs} (ho : o ∈ os) (u : TAddr) :
    Silent u o := by
  cases h with
  | shared => cases ho
  | last M os _ _ hclose =>
    rcases List.mem_cons.mp ho with rfl | ho
    · trivial
    · exact CloseT.silent hclose ho u
  | kicks z M N os os' _ _ hkick hclose =>
    rcases List.mem_cons.mp ho with rfl | ho
    · trivial
    rcases List.mem_append.mp ho with ho | ho
    · exact CloseT.silent hclose ho u
    · exact Kick.silent hkick ho u

lemma OutputStep.silent (h : OutputStep packet t D x y L R os) {o : Obs} (ho : o ∈ os)
    (u : TAddr) : Silent u o := by
  cases h with
  | ended i =>
    rw [List.mem_singleton] at ho
    rw [ho]
    trivial
  | fail token i =>
    rw [List.mem_singleton] at ho
    rw [ho]
    trivial
  | kick z L os _ hkick => exact Kick.silent hkick ho u
  | unref z L R os _ h => exact Unref.silent h ho u
  | _ => cases ho

/-- What an `Unref` leaves of the transport. -/
lemma Unref.look (h : Unref t x L R y M S os) : look y = look x := by
  cases h with
  | kicks z M N os os' _ _ hkick =>
    rw [hkick.frame]
    rfl
  | _ => rfl

/-- What `output_thread` does to the line: it writes its first packet or fails to, then others as
long as it reads. -/
lemma output_look (h : OutputStep packet t D x y L R os) : ∃ more,
    look y = { look x with
      toMain := (look x).toMain ++ more, syncToken := y.syncToken, output := y.output } ∧
    y.output ≠ .start ∧ ((look x).output ≠ .start → y.syncToken = (look x).syncToken) ∧
    (more = [] ∧ y.output ≠ .reading ∧ y.output ≠ .sendSync ∨ (look x).output = .reading ∨
      (look x).output = .sendSync ∨ (look x).output = .start ∧ ∃ p, more = [p] ∧
        p.msg = syncPacket 1 y.syncToken) := by
  have hquiet : ∀ l : Look, { l with toMain := l.toMain ++ [] } = l := by
    intro l
    rw [List.append_nil]
  cases h with
  | greet p hpc hopen hp =>
    exact ⟨[p], rfl, by simp, fun hno => absurd hpc hno, .inr (.inr (.inr ⟨hpc, p, rfl, hp⟩))⟩
  | push p hpc => exact ⟨[p], rfl, by simp, fun _ => rfl, .inr (.inl hpc)⟩
  | ended i hpc =>
    refine ⟨[], ?_, by simp, fun _ => rfl, .inr (.inl hpc)⟩
    exact (hquiet _).symm
  | sync p hpc => exact ⟨[p], rfl, by simp, fun _ => rfl, .inr (.inr (.inl hpc))⟩
  | fail token i hpc hopen htoken =>
    refine ⟨[], (hquiet _).symm, by simp, fun hno => htoken.resolve_right hno, .inl ?_⟩
    exact ⟨rfl, by simp, by simp⟩
  | test pc hpc hpc' =>
    refine ⟨[], (hquiet _).symm, ?_, fun _ => rfl, .inl ⟨rfl, ?_, ?_⟩⟩
    all_goals rcases hpc' with rfl | ⟨rfl, -⟩ <;> simp
  | lock hpc hkicked =>
    exact ⟨[], (hquiet _).symm, by simp, fun _ => rfl, .inl ⟨rfl, by simp, by simp⟩⟩
  | kick z L os hpc hkick =>
    rw [hkick.frame]
    exact ⟨[], (hquiet _).symm, by simp, fun _ => rfl, .inl ⟨rfl, by simp, by simp⟩⟩
  | unref z L R os hpc hunref =>
    have hy := Unref.look hunref
    have hout : y.output = .done := congrArg Look.output hy
    have htoken : y.syncToken = x.syncToken := congrArg Look.syncToken hy
    refine ⟨[], ?_, by simp [hout], fun _ => htoken, .inl ⟨rfl, by simp [hout], by simp [hout]⟩⟩
    rw [hy, hout, htoken]
    exact (hquiet _).symm

variable {m : Moment} {n : ℕ}

/-- Neither the first packet in `toMain` nor the lack of one is affected by what follows. -/
lemma Look.Unheard.output {l : Look} {more : List Apacket} {token : UInt32} {pc : OutputPc}
    (h : l.Unheard) (hstart : pc ≠ .start) (htoken : l.output ≠ .start → token = l.syncToken)
    (hmore : more = [] ∧ pc ≠ .reading ∧ pc ≠ .sendSync ∨ l.output = .reading ∨
      l.output = .sendSync ∨ l.output = .start ∧ ∃ p, more = [p] ∧ p.msg = syncPacket 1 token) :
    Look.Unheard { l with toMain := l.toMain ++ more, syncToken := token, output := pc } := by
  rcases h with ⟨hmain, hread, hsend⟩ | ⟨p, rest, hmain, hp, hout⟩
  · rcases hmore with ⟨rfl, hpc⟩ | hno | hno | ⟨-, p, rfl, hp⟩
    · exact .inl ⟨by simp [hmain], hpc⟩
    · exact absurd hno hread
    · exact absurd hno hsend
    · exact .inr ⟨p, [], by simp [hmain], hp, hstart⟩
  · refine .inr ⟨p, rest ++ more, by simp [hmain], ?_, hstart⟩
    rw [hp, htoken hout]

/-- A step of `output_thread`. -/
lemma LineOf.output (h : LineOf t m) (hidle : m.handling = none) (hx : m.d.transports t = some x)
    (hstep : OutputStep packet t m.d x y L R os)
    (hR : (t, .register) ∈ R ↔ (t, .register) ∈ m.d.registration)
    (hl : AuthLinked t L → AuthLinked t m.d.loop) :
    LineOf t { m with d := m.d.threadResult t y L R os n } := by
  have hsilent : ∀ o ∈ os, Silent t o := fun o ho => OutputStep.silent hstep ho t
  obtain ⟨more, hlook, hstart, htoken, hmore⟩ := output_look hstep
  have hline : Line (m.d.nextTAddr ≤ t) ((t, .register) ∈ m.d.registration)
      (handledOf t m.handling) (AuthLinked t L) (sentTo t m.d.trace) (writtenTo t m.d.trace)
      (some (look y)) := by
    rw [hidle]
    rw [LineOf, hx, Option.map_some, hidle] at h
    rw [hlook]
    generalize look x = l at *
    cases h with
    | silent _ hS hW hln hh hin hdorm hread hunheard =>
      exact .silent _ hS hW (fun hl' => hln (hl hl')) hh hin hdorm hread
        (hunheard.output hstart htoken hmore)
    | greeting _ q hS hW hln hh => cases hh
    | flowing _ taken h hwait hout =>
      refine .flowing _ taken ⟨h.sent, h.written, ?_, h.active, h.reading, h.left⟩ hwait hstart
      obtain ⟨p, rest, hS, hopens⟩ := h.first
      exact ⟨p, rest, hS, (htoken hout).symm ▸ hopens⟩
  rw [LineOf]
  show Line (m.d.nextTAddr ≤ t) ((t, .register) ∈ R) (handledOf t m.handling) (AuthLinked t L)
    (sentTo t (os ++ m.d.trace)) (writtenTo t (os ++ m.d.trace))
    ((update m.d.transports t (some y) t).map look)
  rw [decide_eq_decide.mpr hR, sentTo_append hsilent, writtenTo_append hsilent, update_self]
  exact hline

/-- A step of `input_thread` that reads a packet, or that is past its loop. -/
lemma Flows.input {l : Look} {S W taken : List Apacket} (h : Flows S W taken l) :
    (∀ p rest, l.toInput = p :: rest → l.input = .reading → p.isFinalSync = false →
      Flows S (W ++ if p.msg.command ≠ aSync ∧ l.active = true then [p] else []) (taken ++ [p])
        { l with
          toInput := rest
          active := l.active || (p.msg.command = aSync && p.msg.arg1 = l.syncToken) }) ∧
    (∀ p rest, l.toInput = p :: rest → l.input = .reading → p.isFinalSync = true →
      Flows S W (taken ++ [p]) { l with toInput := rest, input := .closeAll }) ∧
    ∀ pc, l.input ≠ .reading → pc ≠ .reading → Flows S W taken { l with input := pc } := by
  refine ⟨?_, ?_, ?_⟩
  · intro p rest hq hread hp
    have hpass : taken = [] → Opens l.syncToken p := by
      intro hnil
      obtain ⟨p₀, ps, hS, hopens⟩ := h.first
      rw [h.sent, hnil, hq, List.nil_append, List.cons.injEq] at hS
      exact hS.1 ▸ hopens
    refine ⟨?_, ?_, h.first, fun _ => ?_, fun _ q hmem => ?_, fun hno => absurd hread hno⟩
    · rw [h.sent, hq]
      simp
    · rw [h.written, data_append]
      congr 1
      by_cases hsync : p.msg.command = aSync
      · simp [data, hsync]
      · -- a packet that is no `A_SYNC` is not the first
        have hactive : l.active = true := h.active fun hnil => hsync (hpass hnil).1
        simp [data, hsync, hactive]
    · by_cases hnil : taken = []
      · obtain ⟨hsync, -, htoken⟩ := hpass hnil
        simp [hsync, htoken]
      · simp [h.active hnil]
    · rcases List.mem_append.mp hmem with hmem | hmem
      · exact h.reading hread q hmem
      · rw [List.mem_singleton] at hmem
        exact hmem ▸ hp
  · intro p rest hq hread hp
    have hne : taken ≠ [] := by
      rintro hnil
      obtain ⟨p₀, ps, hS, -, harg, -⟩ := h.first
      rw [h.sent, hnil, hq, List.nil_append, List.cons.injEq] at hS
      rw [Apacket.isFinalSync, Bool.and_eq_true, decide_eq_true_eq, decide_eq_true_eq, hS.1] at hp
      exact harg hp.2
    refine ⟨?_, ?_, h.first, fun _ => h.active hne, fun hno => ?_, fun _ => ?_⟩
    · rw [h.sent, hq]
      simp
    · rw [h.written, data_final hp]
    · cases hno
    · exact ⟨taken, p, rfl, hp, h.reading hread⟩
  · intro pc hin hpc
    exact ⟨h.sent, h.written, h.first, h.active, fun hno => absurd hno hpc, fun _ => h.left hin⟩

/-- A step of `input_thread`, other than the closing of its sockets. -/
lemma LineOf.input (h : LineOf t m) (hwf : Wf m) (hidle : m.handling = none)
    (hx : m.d.transports t = some x) (hopen : x.input = .reading → m.d.pairOpen t x = true)
    (hstep : InputStep t m.d x y L R os) (hrun : x.running ≠ 0)
    (hR : (t, .register) ∈ R ↔ (t, .register) ∈ m.d.registration)
    (hl : AuthLinked t L → AuthLinked t m.d.loop) :
    LineOf t { m with d := m.d.threadResult t y L R os n } := by
  have hwait : decide ((t, .register) ∈ m.d.registration) = false := by
    rw [decide_eq_false_iff_not]
    intro hreg
    obtain ⟨z, hz, hstop⟩ := hwf.queue.queued t _ hreg
    rw [hx, Option.some.injEq] at hz
    exact hrun (hz ▸ hstop)
  rw [LineOf]
  show Line (m.d.nextTAddr ≤ t) ((t, .register) ∈ R) (handledOf t m.handling) (AuthLinked t L)
    (sentTo t (os ++ m.d.trace)) (writtenTo t (os ++ m.d.trace))
    ((update m.d.transports t (some y) t).map look)
  rw [decide_eq_decide.mpr hR, update_self, Option.map_some, hidle, hwait]
  rw [LineOf, hx, Option.map_some, hidle, hwait] at h
  -- a thread past its loop
  have hpast : ∀ pc, x.input ≠ .reading → pc ≠ .reading → look y = { look x with input := pc } →
      (∀ o ∈ os, Silent t o) → Line (m.d.nextTAddr ≤ t) false none (AuthLinked t L)
        (sentTo t (os ++ m.d.trace)) (writtenTo t (os ++ m.d.trace)) (some (look y)) := by
    intro pc hpc hpc' hlook hsilent
    rw [sentTo_append hsilent, writtenTo_append hsilent, hlook]
    have hin : (look x).input ≠ .reading := hpc
    generalize look x = l at *
    cases h with
    | silent _ hS hW hln hh hin' hdorm hread => exact (hread.elim hin (by simp)).elim
    | greeting _ q hS hW hln hh => cases hh
    | flowing _ taken h hwait hout =>
      exact .flowing _ taken (h.input.2.2 pc hin hpc') rfl hout
  cases hstep with
  | take p rest hpc hq hp =>
    have hin : (look x).toInput = p :: rest := hq
    have hread : (look x).input = .reading := hpc
    have hsent : sentTo t (.put p.addr :: forwarded t x p ++ m.d.trace) =
        sentTo t m.d.trace := by
      rw [forwarded]
      split <;> rfl
    have hwritten : writtenTo t (.put p.addr :: forwarded t x p ++ m.d.trace) =
        writtenTo t m.d.trace ++
          if p.msg.command ≠ aSync ∧ (look x).active = true then [p] else [] := by
      show writtenTo t (.put p.addr :: (forwarded t x p ++ m.d.trace)) = _
      rw [writtenTo_cons (o := .put p.addr) trivial, forwarded]
      by_cases hfwd : p.msg.command ≠ aSync ∧ x.active = true
      · rw [if_pos hfwd, if_pos (show _ ∧ (look x).active = true from hfwd)]
        exact writtenTo_toRemote
      · rw [if_neg hfwd, if_neg (show ¬(_ ∧ (look x).active = true) from hfwd), List.append_nil]
        rfl
    rw [hsent, hwritten]
    have hlook : look { x with
        toInput := rest
        active := x.active || (p.msg.command = aSync && p.msg.arg1 = x.syncToken) } =
      { look x with
        toInput := rest
        active := (look x).active ||
          (p.msg.command = aSync && p.msg.arg1 = (look x).syncToken) } := rfl
    rw [hlook]
    generalize look x = l at *
    cases h with
    | silent _ hS hW hln hh hno =>
      rw [hno] at hin
      cases hin
    | greeting _ q hS hW hln hh => cases hh
    | flowing _ taken h hwait hout =>
      exact .flowing _ _ (h.input.1 p rest hin hread hp) rfl hout
  | final p rest hpc hq hp =>
    have hin : (look x).toInput = p :: rest := hq
    have hread : (look x).input = .reading := hpc
    have hlook : look { x with toInput := rest, input := .closeAll } =
      { look x with toInput := rest, input := .closeAll } := rfl
    rw [hlook]
    show Line _ _ _ _ (sentTo t m.d.trace) (writtenTo t m.d.trace) _
    generalize look x = l at *
    cases h with
    | silent _ hS hW hln hh hno =>
      rw [hno] at hin
      cases hin
    | greeting _ q hS hW hln hh => cases hh
    | flowing _ taken h hwait hout =>
      exact .flowing _ _ (h.input.2.1 p rest hin hread hp) rfl hout
  | eof hpc hclosed => exact absurd ((hopen hpc).symm.trans hclosed) (by decide)
  | test pc hpc hpc' =>
    refine hpast pc ?_ ?_ rfl fun o ho => by cases ho
    · rcases hpc with h | h <;> simp [h]
    · rcases hpc' with rfl | ⟨rfl, -⟩ <;> simp
  | lock hpc hkicked =>
    exact hpast .kickCall (by simp [hpc]) (by simp) rfl fun o ho => by cases ho
  | kick z L os hpc hkick =>
    refine hpast .unref (by simp [hpc]) (by simp) ?_ fun o ho => Kick.silent hkick ho t
    rw [hkick.frame]
    rfl
  | unref z L R os hpc hunref =>
    exact hpast .done (by simp [hpc]) (by simp) (Unref.look hunref)
      fun o ho => Unref.silent hunref ho t

end Threads

/-! ## Every change -/

section Changes

variable {e : Event} {D₀ : Daemon} {m m' : Moment} {t : TAddr}

/-- The two ends of the pair of `t` are open and its own as long as one of its threads runs. -/
def PairHeld (t : TAddr) (_ : Event) (D : Daemon) : Prop :=
  ∀ x, D.transports t = some x → x.running ≠ 0 → D.pairOpen t x = true

/-- A thread ends up in the queue for its removal only. -/
lemma register_iff {R S : List (TAddr × RegAction)} {u : TAddr}
    (h : S = R ∨ S = R ++ [(u, .remove)]) : (t, .register) ∈ S ↔ (t, .register) ∈ R := by
  rcases h with rfl | rfl
  · rfl
  · simp

/-- The packet at the front of a line is about to be handled. -/
lemma LineOf.receive (h : LineOf t m) (hwf : Wf m) {u : TAddr} {x : Atransport} {p : Apacket}
    {rest : List Apacket} {c : Option UInt32} (hx : m.d.transports u = some x)
    (hp : x.toMain = p :: rest) (hidle : m.handling = none) :
    LineOf t { m with
      d := (m.d.setTransport u { x with toMain := rest }).emit (.received u p)
      handling := some (u, some p)
      credit := c } := by
  by_cases hut : u = t
  · subst hut
    have hmain : (look x).toMain = p :: rest := hp
    rw [LineOf, hx, Option.map_some, hidle] at h
    rw [LineOf]
    show Line (m.d.nextTAddr ≤ u) ((u, .register) ∈ m.d.registration)
      (handledOf u (some (u, some p))) (AuthLinked u m.d.loop) (sentTo u m.d.trace)
      (writtenTo u m.d.trace)
      ((update m.d.transports u (some { x with toMain := rest }) u).map look)
    rw [update_self, Option.map_some, handledOf_self,
      show look { x with toMain := rest } = { look x with toMain := rest } from rfl]
    have hnot : (u, .register) ∉ m.d.registration := by
      intro hreg
      rw [(hwf.queue.waiting u x hreg hx).2.1] at hp
      cases hp
    rw [decide_eq_false hnot] at h ⊢
    generalize look x = l at *
    cases h with
    | silent _ hS hW hln hh hin hdorm hread hunheard =>
      rcases hunheard with ⟨hnil, -⟩ | ⟨q, ps, hq, hsync, hout⟩
      · rw [hnil] at hmain
        cases hmain
      · rw [hmain, List.cons.injEq] at hq
        refine .greeting _ p hS hW hln rfl (hq.1 ▸ hsync) hin hdorm ?_ rfl hout
        exact hread.resolve_right (by decide)
    | greeting _ q hS hW hln hh => cases hh
    | flowing _ taken h hwait hout =>
      exact .flowing _ taken ⟨h.sent, h.written, h.first, h.active, h.reading, h.left⟩ rfl hout
  · refine h.elsewhere hut rfl ⟨rfl, Iff.rfl, ?_, .inl, rfl, rfl⟩
    rw [hidle]
    exact handledOf_of_ne hut

/-- The framework has confirmed the key of a transport. -/
lemma LineOf.verified (h : LineOf t m) {u : TAddr} {x : Atransport}
    (hx : m.d.transports u = some x) (hidle : m.handling = none)
    (hheard : u = t → sentTo t m.d.trace ≠ []) :
    LineOf t { m with
      d := (m.d.emit (.verified u)).setTransport u { x with online := true }
      handling := some (u, none) } := by
  by_cases hut : u = t
  · subst hut
    rw [LineOf, hx, Option.map_some] at h
    rw [LineOf]
    show Line (m.d.nextTAddr ≤ u) ((u, .register) ∈ m.d.registration) _ (AuthLinked u m.d.loop)
      (sentTo u m.d.trace) (writtenTo u m.d.trace)
      ((update m.d.transports u (some { x with online := true }) u).map look)
    rw [update_self, Option.map_some, show look { x with online := true } = look x from rfl]
    cases h with
    | silent l hS => exact absurd hS (hheard rfl)
    | greeting l q hS => exact absurd hS (hheard rfl)
    | flowing l taken h hwait hout => exact .flowing _ taken h hwait hout
  · refine h.elsewhere hut rfl ⟨rfl, Iff.rfl, ?_, .inl, rfl, rfl⟩
    rw [hidle]
    exact handledOf_of_ne hut

/-- A transport is made. -/
lemma LineOf.register (h : LineOf t m) (hwf : Wf m) {x : Atransport}
    (hx : x = { type := x.type, sfd := x.sfd, serial := x.serial }) :
    LineOf t { m with d := m.d.registerTransport x } := by
  rw [LineOf]
  show Line (m.d.nextTAddr + 1 ≤ t)
    ((t, .register) ∈ m.d.registration ++ [(m.d.nextTAddr, .register)]) (handledOf t m.handling)
    (AuthLinked t m.d.loop) (sentTo t m.d.trace) (writtenTo t m.d.trace)
    ((update m.d.transports m.d.nextTAddr (some x) t).map look)
  by_cases htN : t = m.d.nextTAddr
  · have hnone : m.d.transports t = none := by
      rw [← Option.not_isSome_iff_eq_none, Option.isSome_iff_exists]
      rintro ⟨y, hy⟩
      exact absurd (hwf.queue.fresh t y hy) (htN ▸ Nat.lt_irrefl _)
    rw [LineOf, hnone] at h
    rw [← htN, update_self, Option.map_some]
    cases h with
    | absent hS hW hl hh =>
      refine .silent _ hS hW hl hh ?_ ?_ (.inr (by simp)) (.inl ?_)
      · rw [hx]
        rfl
      · rw [hx]
        rfl
      · rw [hx]
        exact ⟨rfl, by simp [look], by simp [look]⟩
    | gone hborn => exact absurd htN.ge (of_decide_eq_false hborn)
  · rw [update_of_ne htN]
    rw [LineOf] at h
    have hborn : decide (m.d.nextTAddr + 1 ≤ t) = decide (m.d.nextTAddr ≤ t) :=
      decide_eq_decide.mpr ⟨Nat.le_of_succ_le, fun hle => Nat.lt_of_le_of_ne hle (Ne.symm htN)⟩
    have hwait : decide ((t, .register) ∈ m.d.registration ++ [(m.d.nextTAddr, .register)]) =
        decide ((t, .register) ∈ m.d.registration) := by
      rw [decide_eq_decide, List.mem_append, List.mem_singleton, Prod.mk.injEq]
      exact or_iff_left fun hno => htN hno.1
    rw [hborn, hwait]
    exact h

/-- A transport that waits for its registration is given its pair and its threads. -/
lemma LineOf.start (h : LineOf t m) (hwf : Wf m) (hlife : Life t m.d) {x y : Atransport}
    (hx : m.d.transports t = some x) (hreg : (t, .register) ∈ m.d.registration)
    (hT : m'.d.transports = update m.d.transports t (some y))
    (hlook : look y = { look x with input := .reading, output := .start })
    (hH : m'.handling = m.handling) (hN : m'.d.nextTAddr = m.d.nextTAddr)
    (hsent : sentTo t m'.d.trace = sentTo t m.d.trace)
    (hwritten : writtenTo t m'.d.trace = writtenTo t m.d.trace)
    (hl : AuthLinked t m'.d.loop → AuthLinked t m.d.loop ∨ m.Serving t) : LineOf t m' := by
  rw [LineOf, hH, hN, hsent, hwritten, hT, update_self, Option.map_some, hlook]
  have hmain : (look x).toMain = [] := (hwf.queue.waiting t x hreg hx).2.1
  have hdone : (look x).input = .done := by
    obtain ⟨-, hcore, -⟩ := hlife.waiting hx (mem_queueOf.mpr hreg)
    exact inputStage_eq_done.mp (congrArg Core.other hcore)
  rw [LineOf, hx, Option.map_some, decide_eq_true hreg] at h
  generalize look x = l at *
  cases h with
  | silent _ hS hW hln hh hin hdorm hread hunheard =>
    refine .silent _ hS hW (fun hl' => (hl hl').elim hln (not_serving hh)) hh hin hdorm
      (.inl rfl) (.inl ⟨hmain, by simp, by simp⟩)
  | greeting _ q hS hW hln hh hq hin hdorm hread hwait => cases hwait
  | flowing _ taken h hwait => cases hwait

/-- A transport is freed. -/
lemma LineOf.free (h : LineOf t m) (hwf : Wf m) {x : Atransport} (hidle : m.handling = none)
    (hx : m.d.transports t = some x) (hreg : (t, .register) ∉ m.d.registration)
    (hdone : x.input = .done) :
    LineOf t { m with d := { m.d with transports := update m.d.transports t none } } := by
  have hborn : decide (m.d.nextTAddr ≤ t) = false :=
    decide_eq_false (Nat.not_le.mpr (hwf.queue.fresh t x hx))
  have hin : (look x).input ≠ .reading := by
    intro hno
    cases hdone.symm.trans hno
  rw [LineOf, hx, Option.map_some, hidle, decide_eq_false hreg] at h
  rw [LineOf]
  show Line (m.d.nextTAddr ≤ t) _ _ _ (sentTo t m.d.trace) (writtenTo t m.d.trace)
    ((update m.d.transports t none t).map look)
  rw [update_self, Option.map_none]
  generalize look x = l at *
  cases h with
  | silent _ hS hW hln hh hin' hdorm hread => exact (hread.elim hin (by simp)).elim
  | greeting _ q hS hW hln hh => cases hh
  | flowing _ taken h hwait hout =>
    obtain ⟨p, rest, hS, -⟩ := h.first
    refine .gone hborn (by simp [hS]) ?_
    obtain ⟨before, p, rfl, hp, hbefore⟩ := h.left hin
    rw [h.written, data_final hp, h.sent, List.append_assoc, List.singleton_append,
      beforeFinal_eq hbefore hp]

/-- The sockets of a transport have been closed. -/
lemma LineOf.closedAll (h : LineOf t m) (hwf : Wf m) {x : Atransport} (hidle : m.handling = none)
    (hx : m.d.transports t = some x) (hpc : x.input = .closeAll) :
    LineOf t { m with d := m.d.setTransport t { x with input := .kickTest } } := by
  have hin : (look x).input ≠ .reading := by
    intro hno
    cases hpc.symm.trans hno
  have hreg : (t, .register) ∉ m.d.registration := by
    intro hreg
    obtain ⟨z, hz, hrun⟩ := hwf.queue.queued t _ hreg
    rw [hx, Option.some.injEq] at hz
    subst hz
    cases hpc.symm.trans (inputStage_eq_done.mp (stages_of_running hrun).2)
  rw [LineOf, hx, Option.map_some, hidle, decide_eq_false hreg] at h
  rw [LineOf]
  show Line (m.d.nextTAddr ≤ t) ((t, .register) ∈ m.d.registration) (handledOf t m.handling)
    (AuthLinked t m.d.loop) (sentTo t m.d.trace) (writtenTo t m.d.trace)
    ((update m.d.transports t (some { x with input := .kickTest }) t).map look)
  rw [update_self, Option.map_some, hidle, decide_eq_false hreg,
    show look { x with input := .kickTest } = { look x with input := .kickTest } from rfl]
  generalize look x = l at *
  cases h with
  | silent _ hS hW hln hh hin' hdorm hread => exact (hread.elim hin (by simp)).elim
  | greeting _ q hS hW hln hh => cases hh
  | flowing _ taken h hwait hout =>
    exact .flowing _ taken (h.input.2.2 .kickTest hin (by simp)) rfl hout

/-- The packet, or the framework's answer, has been dealt with. -/
lemma LineOf.finish (h : LineOf t m)
    (hecho : ∀ p, m.handling = some (t, some p) → p.msg.command = aSync →
      .sent t none (stamp p) ∈ m.d.trace) :
    LineOf t { m with handling := none, credit := none } := by
  rw [LineOf] at h ⊢
  show Line (m.d.nextTAddr ≤ t) ((t, .register) ∈ m.d.registration) none
    (AuthLinked t m.d.loop) (sentTo t m.d.trace) (writtenTo t m.d.trace)
    ((m.d.transports t).map look)
  generalize (m.d.transports t).map look = o at *
  cases h with
  | absent hS hW hl hh => exact .absent hS hW hl rfl
  | silent l hS hW hl hh hin hdorm hread hmain => exact .silent l hS hW hl rfl hin hdorm hread hmain
  | greeting l q hS hW hl hh hq =>
    have hmem := hecho q (handledOf_eq.mp hh) (syncPacket_command hq)
    have hsent : stamp q ∈ sentTo t m.d.trace := by
      rw [sentTo, List.mem_reverse, List.mem_filterMap]
      exact ⟨_, hmem, by simp⟩
    rw [hS] at hsent
    cases hsent
  | flowing l taken h hwait hout => exact .flowing l taken h hwait hout
  | gone hborn hS hW => exact .gone hborn hS hW

/-- A step of a thread of another transport. -/
lemma LineOf.thread {u : TAddr} {y : Atransport} {L : Loop FdeId} {R : List (TAddr × RegAction)}
    {os : List Obs} {n : ℕ} (h : LineOf t m) (hut : u ≠ t) (hos : ∀ o ∈ os, o.ofThread u)
    (hR : (t, .register) ∈ R ↔ (t, .register) ∈ m.d.registration)
    (hl : AuthLinked t L → AuthLinked t m.d.loop ∨ m.Serving t) :
    LineOf t { m with d := m.d.threadResult u y L R os n } := by
  have hsilent : ∀ o ∈ os, Silent t o := by
    intro o ho
    have hthread := hos o ho
    cases o with
    | sent v via p => exact hthread.elim
    | toRemote v p =>
      rintro rfl
      exact hut hthread.symm
    | _ => trivial
  exact h.elsewhere hut rfl ⟨rfl, hR, rfl, hl, sentTo_append hsilent, writtenTo_append hsilent⟩

/-- The line of every transport is kept by every change. -/
theorem line_effect (he : Effect e D₀ m m') (h : Wf m) (hhost : m.d.config.host = false)
    (hheld : PairHeld t e D₀) (hlife : Life t m.d)
    (hposted : Removes e D₀ t → .posted t ∈ m.d.trace)
    (hheard : FrameworkOk e D₀ t → sentTo t m.d.trace ≠ []) (hline : LineOf t m) :
    LineOf t m' := by
  have hl : AuthLinked t m'.d.loop → AuthLinked t m.d.loop ∨ m.Serving t := he.authLinked h
  cases he
  case note o ho =>
    have hsilent : Silent t o := by
      cases o <;> trivial
    exact hline.congr rfl ⟨rfl, Iff.rfl, rfl, hl, sentTo_cons hsilent, writtenTo_cons hsilent⟩
  case finish hecho => exact hline.finish fun p hp hcmd => hecho t p hp hcmd hhost
  case receive u x p rest hx hp hidle => exact hline.receive h hx hp hidle
  case send via p u x hx hmay hopen habout hcmd hsync =>
    refine hline.sent h hx hmay (fun q hq hcmd hdorm => ?_) rfl rfl rfl rfl rfl rfl rfl hl
    cases via with
    | none => exact (habout.2 u q hq hcmd hhost).2
    | some r =>
      obtain ⟨-, ⟨q', hq', hrem, ht⟩, -⟩ := habout
      exact absurd ((not_dormant h hx hq' hrem ht).symm.trans hdorm) (by decide)
  case okay a r s q p u x ha hs hq hp hr hx hmay hopen howed hcmd hid hdest =>
    refine hline.sent h hx hmay (fun q' hq' hcmd' hdorm => ?_) rfl rfl rfl rfl rfl rfl rfl hl
    rcases hdest with ⟨-, ht⟩ | ⟨-, p', hp', hno⟩
    · exact absurd ((not_dormant h hx hq hr ht).symm.trans hdorm) (by decide)
    · cases hq'.symm.trans hp'
      exact absurd hcmd' hno
  case tweak u x x' hx hx' =>
    have hlook : look x' = look x := by
      rw [hx']
      rfl
    exact hline.assign hx rfl (by rw [hlook]) (fun _ hd => .inl (hlook ▸ hd))
      ⟨rfl, Iff.rfl, rfl, hl, rfl, rfl⟩
  case offline u x hx =>
    refine hline.assign hx rfl rfl (fun _ hd => .inl ?_) ⟨rfl, Iff.rfl, rfl, hl, rfl, rfl⟩
    obtain ⟨-, hnil⟩ := of_decide_eq_true hd
    exact decide_eq_true ⟨rfl, hnil⟩
  case down u x hx hidle =>
    exact hline.assign hx rfl rfl (fun _ hd => .inl hd) ⟨rfl, Iff.rfl, rfl, hl, rfl, rfl⟩
  case up u x hx hserve hopen =>
    exact hline.assign hx rfl rfl (fun _ hd => .inl hd) ⟨rfl, Iff.rfl, rfl, hl, rfl, rfl⟩
  case verified u x hx hidle hok =>
    exact hline.verified hx hidle fun hut => hheard (hut ▸ hok)
  case banner u x text hx hserve =>
    obtain ⟨st, a, b, c, hb⟩ := parseBanner_eq text x
    refine hline.assign hx rfl ?_ (fun hut _ => .inr (hut ▸ hserve))
      ⟨rfl, Iff.rfl, rfl, hl, rfl, rfl⟩
    rw [hb]
    rfl
  case dropRemote r s u x hs hr hops ht hx =>
    refine hline.assign hx rfl rfl (fun _ hd => .inl ?_) ⟨rfl, Iff.rfl, rfl, hl, rfl, rfl⟩
    obtain ⟨hstate, hnil⟩ := of_decide_eq_true hd
    refine decide_eq_true ⟨hstate, ?_⟩
    show x.disconnects.erase r = []
    rw [hnil]
    rfl
  case pair a s id u x hs hp hc hli hin hnew hx hserve hon opened hopened =>
    refine hline.assign hx rfl rfl (fun hut _ => .inr (hut ▸ hserve))
      ⟨rfl, Iff.rfl, rfl, hl, ?_, ?_⟩
    all_goals cases opened <;> rfl
  case wrteRead a r s q p u x ev L ha hs hops hp hto hin hset hev hread hwrite hevents hsub hb _ =>
    exact hline.ofStream h hto rfl rfl rfl rfl rfl rfl rfl hl
  case wrteJdwp a r s q p u x ha hs hops hp hto hpass =>
    exact hline.ofStream h hto rfl rfl rfl rfl rfl rfl rfl hl
  case wrteTracker a r s q p u x ha hs hops hp hto hneed =>
    exact hline.ofStream h hto rfl rfl rfl rfl rfl rfl rfl hl
  case register x hx hown => exact hline.register h hx
  case enlist u x rest hreg hx hstate =>
    by_cases hut : u = t
    · subst hut
      -- a transport that waits is not one without permission
      obtain ⟨-, hcore, -⟩ := hlife.waiting hx (by rw [hreg, queueOf_cons_self]; simp)
      cases hstate.symm.trans (congrArg Core.state hcore)
    · refine hline.elsewhere hut rfl ⟨rfl, ?_, rfl, hl, rfl, rfl⟩
      rw [hreg]
      simp [Ne.symm hut]
  case start u x rest n k L M hreg hx hn hk hnk hL hM =>
    have hmem : (u, .register) ∈ m.d.registration := by
      rw [hreg]
      exact List.mem_cons_self
    by_cases hut : u = t
    · subst hut
      refine hline.start h hlife hx hmem rfl ?_ rfl rfl rfl rfl hl
      obtain ⟨hnil, -⟩ := h.queue.waiting u x hmem hx
      simp only [look, hnil]
    · refine hline.elsewhere hut rfl ⟨rfl, ?_, rfl, hl, rfl, rfl⟩
      rw [hreg]
      simp [Ne.symm hut]
  case unplug u x rest L hreg hx hrem hsame hL own own' =>
    obtain ⟨os, htrace, hos⟩ := unplug_trace own own'
      (has (m.d.loop.mem (.transport u)).state fdeActive) m.d.trace
    have hsilent : ∀ o ∈ os, Silent t o := by
      intro o ho
      rcases hos o ho with ⟨d, i, b, rfl⟩ | rfl <;> trivial
    refine hline.congr rfl ⟨rfl, ?_, rfl, hl, ?_, ?_⟩
    · rw [hreg]
      simp
    · exact (congrArg (sentTo t) htrace).trans (sentTo_append hsilent)
    · exact (congrArg (writtenTo t) htrace).trans (writtenTo_append hsilent)
  case freeTransport u x hidle hx hd hrem hhist hreg hin =>
    by_cases hut : u = t
    · subst hut
      exact hline.free h hidle hx (hreg _) (hlife.stages_of_posted hx (hposted hrem)).2
    · exact hline.elsewhere hut rfl ⟨rfl, Iff.rfl, rfl, hl, rfl, rfl⟩
  case output u x y L R os n hidle hx hact hstep =>
    obtain ⟨hrun, -, hR⟩ := hstep.running (h.queue.refs u x hx)
    have hreg := @register_iff t _ _ u (hR.imp_right And.left)
    by_cases hut : u = t
    · subst hut
      exact hline.output hidle hx hstep hreg fun hl' => (hl hl').resolve_right (not_idle hidle)
    · exact hline.thread hut (fun o ho => hstep.ofThread ho) hreg hl
  case input u x y L R os n hidle hx hstart hstep =>
    obtain ⟨hrun, -, hR⟩ := hstep.running (h.queue.refs u x hx)
    have hreg := @register_iff t _ _ u (hR.imp_right And.left)
    by_cases hut : u = t
    · subst hut
      obtain ⟨hx₀, hloop, howner⟩ := hstart
      refine hline.input h hidle hx (fun _ => ?_) hstep hrun hreg
        fun hl' => (hl hl').resolve_right (not_idle hidle)
      have hopen := hheld x hx₀ hrun
      rw [pairOpen, holds, holds] at hopen ⊢
      rw [hloop, howner]
      exact hopen
    · exact hline.thread hut (fun o ho => hstep.ofThread ho) hreg hl
  case closedAll u x hidle hx hpc =>
    by_cases hut : u = t
    · subst hut
      exact hline.closedAll h hidle hx hpc
    · exact hline.elsewhere hut rfl ⟨rfl, Iff.rfl, rfl, hl, rfl, rfl⟩
  all_goals exact hline.congr rfl ⟨rfl, Iff.rfl, rfl, hl, rfl, rfl⟩

end Changes

/-! ## Runs -/

section Runs

variable {t : TAddr} {e : Event} {D : Daemon} {m : Moment} {os l : List Obs}

/-- The framework answers about a transport whose `auth_fde` the event loop refers to. -/
lemma authLinked_of_delivered {ev : BitVec 16} {rs : List Syscall.ReadResult}
    (hd : D.delivered e = some (.auth t, ev, rs)) : AuthLinked t D.loop := by
  rw [delivered] at hd
  split at hd
  case h_2 => cases hd
  case h_1 k rest hact hlist =>
    split at hd
    case isFalse => cases hd
    case isTrue hpend =>
      split at hd
      case isFalse hk =>
        cases hd
        exact .inl (hlist ▸ List.mem_cons_self)
      case isTrue hk => exact .inr (.inr (DrainPeers.forced_eq_some hd).1)

/-- So it has been heard of. -/
lemma LineOf.heard (h : LineOf t m) (hl : AuthLinked t m.d.loop) : sentTo t m.d.trace ≠ [] := by
  rw [LineOf] at h
  generalize (m.d.transports t).map look = o at h
  cases h with
  | absent hS hW hno => exact absurd hl hno
  | silent l hS hW hno => exact absurd hl hno
  | greeting l q hS hW hno => exact absurd hl hno
  | flowing l taken h =>
    obtain ⟨p, rest, hS, -⟩ := h.first
    rw [hS]
    exact List.cons_ne_nil p rest
  | gone hborn hS => exact hS

lemma sentTo_ne_nil (h : os <:+ l) (hne : sentTo t os ≠ []) : sentTo t l ≠ [] := by
  obtain ⟨new, rfl⟩ := h
  intro hnil
  rw [sentTo, List.filterMap_append, List.reverse_append, List.append_eq_nil_iff] at hnil
  exact hne hnil.1

/-- In every run that leaves the pair of `t` alone, its line is kept. -/
lemma line_kept (t : TAddr) : Kept (PairHeld t) fun m =>
    Life t m.d ∧ (m.d.config.host = false → LineOf t m) := by
  intro e D m m' hC hw hinv hpath hwf hm he
  refine ⟨life_kept t e D m m' trivial hw hinv.1 hpath hwf hm.1 he, fun hhost => ?_⟩
  rw [he.config] at hhost
  refine line_effect he hwf hhost hC hm.1 (hinv.1.posted_of_removes hpath) (fun hok => ?_)
    (hm.2 hhost)
  obtain ⟨ev, rs, hd, -⟩ := hok
  rw [config_of_path hpath] at hhost
  exact sentTo_ne_nil (trace_of_path hpath) ((hinv.2 hhost).heard (authLinked_of_delivered hd))

/-- A line in order loses nothing. -/
lemma LineOf.noLoss (h : LineOf t { d := D }) : NoLoss t D := by
  rw [LineOf] at h
  cases hx : D.transports t with
  | none =>
    rw [hx, Option.map_none] at h
    have hdead : ∀ x, D.transports t = some x → False := by
      intro x hsome
      rw [hx] at hsome
      cases hsome
    cases h with
    | absent hS hW =>
      refine ⟨?_, fun x hsome => (hdead x hsome).elim, fun _ => ?_⟩
      · exact hW.symm ▸ List.nil_prefix
      · rw [show sentTo t D.trace = [] from hS]
        exact List.nil_prefix
    | gone hborn hS hW =>
      refine ⟨?_, fun x hsome => (hdead x hsome).elim, fun _ => ?_⟩
      · rw [show writtenTo t D.trace = _ from hW]
        exact (List.takeWhile_prefix _).filter _
      · exact hW ▸ List.prefix_rfl
  | some x =>
    rw [hx, Option.map_some] at h
    have heq : ∀ y, D.transports t = some y → y = x := by
      intro y hy
      rw [hx, Option.some.injEq] at hy
      exact hy.symm
    cases h with
    | silent l hS hW hln hh hin =>
      refine ⟨?_, fun y hy => ⟨[], ?_, hW⟩, fun _ => ?_⟩
      · exact hW.symm ▸ List.nil_prefix
      · rw [heq y hy, show sentTo t D.trace = [] from hS, show x.toInput = [] from hin]
        rfl
      · rw [show sentTo t D.trace = [] from hS]
        exact List.nil_prefix
    | greeting l q hS hW hln hh => cases hh
    | flowing l taken h =>
      refine ⟨?_, fun y hy => ⟨taken, ?_, h.written⟩, fun hended => ?_⟩
      · rw [h.written, h.sent, data_append]
        exact List.prefix_append _ _
      · rw [heq y hy]
        exact h.sent
      · obtain ⟨before, p, htaken, hp, hbefore⟩ := h.left (hended x hx)
        have hW : writtenTo t D.trace = data before := by
          rw [← data_final hp, ← htaken]
          exact h.written
        have hS : sentTo t D.trace = before ++ p :: x.toInput := by
          rw [List.append_cons, ← htaken]
          exact h.sent
        rw [hS, beforeFinal_eq hbefore hp]
        exact hW ▸ List.prefix_rfl

/-- `adb_main` refers to listeners only. -/
lemma not_authLinked {config : Config} {fds : List ℕ} {inUse : ℕ → Bool}
    (h : adbMain config fds inUse = .ok D) : ¬AuthLinked t D.loop := by
  have hboot := booting_adbMain h
  have hno : ¬D.loop.Installed (.auth t) := by
    intro hin
    have hmem := hboot.installed _ hin
    simp at hmem
  rintro (hmem | ⟨n, mask, hn⟩ | ⟨n, hn⟩)
  · exact hno (hboot.wf.pending _ hmem trivial).1
  · exact hno (hboot.wf.entry n mask _ hn trivial).1
  · exact hno (hboot.wf.slot n _ hn trivial).1

end Runs

/-! ## Two runs -/

/-- The transport `t` is greeted by its host, and answers. -/
def greet (t : TAddr) (n : ℕ) : List Event :=
  carry t n (packetOf aCnxn aVersion 4096 (str "host::" ++ [0])) {}

/-- The commands of the packets. -/
def commands (ps : List Apacket) : List UInt32 := ps.map fun p => p.msg.command

/-- `PairHeld`, as a test. -/
def pairHeld (t : TAddr) (D : Daemon) : Bool :=
  (D.transports t).all fun x => decide (x.running = 0) || D.pairOpen t x

lemma pairHeld_of_test {t : TAddr} {D : Daemon} (e : Event) (h : pairHeld t D = true) :
    PairHeld t e D := by
  intro x hx hrun
  rw [pairHeld, hx, Option.all_some, Bool.or_eq_true, decide_eq_true_eq] at h
  exact h.resolve_left hrun

/-- Two connections.  The threads of the first end while the second waits for its registration, so
the second is given the number 12 for its end of the pair.  It is greeted, and before its
`input_thread` runs the first is removed, with another close of 12. -/
def cutOff : List Event :=
  connect 0 10 11 12 ++ ⟨.registerSocket [], { fds := [20] }⟩ ::
    List.replicate 6 ⟨.output 0, {}⟩ ++ handleNext 11 {} ++ List.replicate 5 ⟨.input 0, {}⟩ ++
    handleNext 4 { fds := [21, 12] } ++ ⟨.output 1, {}⟩ :: handleNext 21 {} ++ greet 1 21 ++
    handleNext 4 {} ++ [⟨.input 1, {}⟩]

end Adbd.OutgoingPath
