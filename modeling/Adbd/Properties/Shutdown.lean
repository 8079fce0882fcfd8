import Adbd.Properties.DescriptorOwners
import Adbd.Properties.IncomingPath

/-!
# Shutting a transport down

When the connection of a transport ends, its `output_thread` passes an `A_SYNC` with `arg0 = 0` to
the main loop, which takes the transport offline and echoes the packet to `input_thread`; that
thread ends at the echo, and the last of the two closes the pair.  The handshake is there so that
`send_packet`, which ends the daemon when it cannot write, is never called for a pair that has been
closed.

It works as long as the `A_SYNC` is the thread's own.  A remote can send one too, and what it sends
after it is handled all the same; an answer of the framework can come after the threads have ended;
and the pair of one transport can be closed by the removal of another.  The theorem says that there
is nothing else.
-/

namespace Adbd.Shutdown

open Function Relation Transition FlagWord Daemon DescriptorOwners
open OutgoingPath (sentTo LineOf PairHeld)
open PeerLinks (connect handleNext unlocked)
open IncomingPath (Incoming Late content greeting farewell readFrom)

/-! ## The last packet -/

/-- The content of an `A_SYNC` with `arg0 = 0`. -/
def Final (c : Amessage × List UInt8) : Prop := c.1.command = aSync ∧ c.1.arg0 = 0

/-- The final packet has been sent to `input_thread` of `t`. -/
def Ended (t : TAddr) (os : List Obs) : Prop := ∃ p ∈ sentTo t os, p.isFinalSync = true

/-- Observations other than that a packet is sent. -/
def Unsent : Obs → Prop
  | .sent _ _ _ => False
  | _ => True

section Last

variable {t u : TAddr} {os tr : List Obs} {o : Obs} {p : Apacket} {via : Option Addr}
  {x : Atransport} {D : Daemon} {reads : List (Amessage × List UInt8)}

lemma final_content (h : p.isFinalSync = true) : Final (content p) := by
  rw [Apacket.isFinalSync, Bool.and_eq_true, decide_eq_true_eq, decide_eq_true_eq] at h
  exact h

lemma not_final_greeting (token : UInt32) : ¬Final (greeting token) := by
  rintro ⟨-, hno⟩
  cases hno

/-- In a beginning of a list, nothing comes after the element that only the end of the list can
be. -/
lemma eq_nil_of_last {α : Type*} {P : α → Prop} {l v w : List α} {a : α} (hl : ∀ b ∈ l, ¬P b)
    (h : v ++ w <+: l ++ [a]) (hv : ∃ b ∈ v, P b) : w = [] := by
  obtain ⟨b, hb, hP⟩ := hv
  rcases List.prefix_concat_iff.mp h with heq | hpre
  · rcases List.eq_nil_or_concat w with rfl | ⟨w', c, rfl⟩
    · rfl
    · rw [List.concat_eq_append, ← List.append_assoc] at heq
      have hvw := (List.append_inj' heq rfl).1
      exact absurd hP (hl b (hvw ▸ List.mem_append_left _ hb))
  · exact absurd hP (hl b (hpre.subset (List.mem_append_left _ hb)))

/-- When the final packet has been handled, nothing is left of what `output_thread` wrote, and it
writes no more. -/
lemma last_handled (h : Incoming True t reads D) (hreads : ∀ c ∈ reads, ¬Final c)
    (hp : .received t p ∈ D.trace) (hfinal : p.isFinalSync = true) (hx : D.transports t = some x) :
    x.toMain = [] ∧ Late x.output := by
  have hline := h.line (IncomingPath.look x) (by rw [hx, Option.map_some])
  have hhandled : content p ∈ IncomingPath.handledOf t D.trace := by
    rw [IncomingPath.handledOf, List.mem_reverse, List.mem_filterMap]
    exact ⟨_, hp, if_pos rfl⟩
  have hbefore : ∀ token, ∀ c ∈ greeting token :: reads, ¬Final c := by
    intro token c hc
    rcases List.mem_cons.mp hc with rfl | hc
    · exact not_final_greeting token
    · exact hreads c hc
  have hmem : content p ∈ IncomingPath.handledOf t D.trace ++ (IncomingPath.look x).1 :=
    List.mem_append_left _ hhandled
  have hlate : Late x.output := by
    change IncomingPath.Written True reads _ x.output at hline
    refine ⟨fun hpc => ?_, fun hpc => ?_, fun hpc => ?_⟩
    · rw [hpc] at hline
      rw [hline.1] at hmem
      cases hmem
    · rw [hpc] at hline
      obtain ⟨token, hw⟩ := hline
      exact hbefore token _ (hw ▸ hmem) (final_content hfinal)
    · rw [hpc] at hline
      obtain ⟨token, hw⟩ := hline
      exact hbefore token _ (hw ▸ hmem) (final_content hfinal)
  obtain ⟨token, hpre, -⟩ := (IncomingPath.written_late hlate).mp hline
  have hnil := eq_nil_of_last (hbefore token) hpre ⟨_, hhandled, final_content hfinal⟩
  exact ⟨List.map_eq_nil_iff.mp hnil, hlate⟩

lemma ended_of_sent (hp : u = t → p.isFinalSync = false) (h : Ended t (.sent u via p :: os)) :
    Ended t os := by
  obtain ⟨q, hq, hfinal⟩ := h
  by_cases hut : u = t
  · subst hut
    rw [OutgoingPath.sentTo_sent, List.mem_append, List.mem_singleton] at hq
    rcases hq with hq | rfl
    · exact ⟨q, hq, hfinal⟩
    · rw [hp rfl] at hfinal
      cases hfinal
  · rw [OutgoingPath.sentTo_cons (show OutgoingPath.Silent t (.sent u via p) from hut)] at hq
    exact ⟨q, hq, hfinal⟩

lemma ended_of_unsent (h : Ended t (o :: os)) (ho : Unsent o) : Ended t os := by
  obtain ⟨q, hq, hfinal⟩ := h
  refine ⟨q, ?_, hfinal⟩
  rw [sentTo, List.filterMap_cons] at hq
  cases o <;> first | exact ho.elim | exact hq

lemma ended_of_append (h : Ended t (os ++ tr)) (hos : ∀ o ∈ os, Unsent o) : Ended t tr := by
  induction os with
  | nil => exact h
  | cons o os ih =>
    have hrest : Ended t (os ++ tr) := ended_of_unsent h (hos o List.mem_cons_self)
    exact ih hrest fun o ho => hos o (List.mem_cons_of_mem _ ho)

lemma unsent_of_thread (h : o.ofThread t) : Unsent o := by
  cases o <;> trivial

lemma not_final_of_command (h : p.msg.command ≠ aSync) : p.isFinalSync = false := by
  rw [Apacket.isFinalSync, decide_eq_false h]
  rfl

end Last

/-! ## After it -/

/-- A transport for which the final packet has been sent, while the packet of `H` is handled: it is
offline, has no streams, nothing is on its way to the main loop, and while one of its packets is
handled its `input_thread` has not ended. -/
structure Quiet (t : TAddr) (H : Option (TAddr × Option Apacket)) (x : Atransport) : Prop where
  offline : x.connectionState = .offline
  streams : x.disconnects = []
  empty : x.toMain = []
  late : Late x.output
  unserved : ∀ p, H = some (t, some p) → p.msg.command = aSync
  alive : ∀ q, H = some (t, q) → x.input ≠ .done

/-- Once the final packet has been sent, the transport is quiet. -/
def Quieted (t : TAddr) (m : Moment) : Prop :=
  Ended t m.d.trace → ∀ x, m.d.transports t = some x → Quiet t m.handling x

section Quiet

variable {t u : TAddr} {m m' : Moment} {x y : Atransport} {H : Option (TAddr × Option Apacket)}

lemma Quiet.not_serving (h : Quiet t m.handling x) : ¬m.Serving t := by
  rintro ⟨p, hp, hcmd⟩
  exact hcmd (h.unserved p hp)

/-- Nothing is sent to a quiet transport whose `input_thread` has ended. -/
lemma Quiet.not_maySend (h : Quiet t m.handling x) (hwf : Wf m) (hx : m.d.transports t = some x)
    (hdone : x.input = .done) : ¬m.MaySend t := by
  refine OutgoingPath.not_maySend hwf hx (decide_eq_true ⟨h.offline, h.streams⟩) ?_
  rw [OutgoingPath.handledOf, Option.map_eq_none_iff, Option.filter_eq_none_iff]
  rintro ⟨v, q⟩ hq hv
  rw [decide_eq_true_eq] at hv
  exact h.alive q (hv ▸ hq) hdone

/-- The transports and what is handled stay as they are. -/
lemma Quieted.congr (h : Quieted t m) (htrace : Ended t m'.d.trace → Ended t m.d.trace)
    (hT : m'.d.transports t = m.d.transports t)
    (hH : ∀ q, m'.handling = some (t, q) → m.handling = some (t, q)) : Quieted t m' := by
  intro hended x hx
  have hq := h (htrace hended) x (hT ▸ hx)
  exact { hq with
    unserved := fun p hp => hq.unserved p (hH _ hp)
    alive := fun q hq' => hq.alive q (hH q hq') }

/-- Fields of a transport are assigned to, and what is handled stays as it is. -/
lemma Quieted.assign (h : Quieted t m) (htrace : Ended t m'.d.trace → Ended t m.d.trace)
    (hx : m.d.transports u = some x) (hT : m'.d.transports = update m.d.transports u (some y))
    (hH : m'.handling = m.handling)
    (hy : u = t → Quiet t m.handling x → Quiet t m.handling y) : Quieted t m' := by
  intro hended z hz
  rw [hT] at hz
  rw [hH]
  by_cases htu : t = u
  · subst htu
    rw [update_self, Option.some.injEq] at hz
    exact hz ▸ hy rfl (h (htrace hended) x hx)
  · rw [update_of_ne htu] at hz
    exact h (htrace hended) z hz

end Quiet

/-! ## The changes -/

section Changes

variable {e : Event} {D₀ : Daemon} {m m' : Moment} {t : TAddr} {x : Atransport}
  {reads : List (Amessage × List UInt8)}

/-- What was sent for `t` includes the final packet only while its line is in use. -/
lemma flows_of_ended (h : LineOf t m) (hended : Ended t m.d.trace)
    (hx : m.d.transports t = some x) : (t, .register) ∉ m.d.registration := by
  obtain ⟨p, hp, -⟩ := hended
  have hne : sentTo t m.d.trace ≠ [] := List.ne_nil_of_mem hp
  rw [LineOf, hx, Option.map_some] at h
  cases h with
  | silent l hS => exact absurd hS hne
  | greeting l q hS => exact absurd hS hne
  | flowing l taken h hwait hout => exact of_decide_eq_false hwait

lemma born_of_ended (h : LineOf t m) (hwf : Wf m) (hended : Ended t m.d.trace) :
    t < m.d.nextTAddr := by
  obtain ⟨p, hp, -⟩ := hended
  have hne : sentTo t m.d.trace ≠ [] := List.ne_nil_of_mem hp
  cases hx : m.d.transports t with
  | some x => exact hwf.queue.fresh t x hx
  | none =>
    rw [LineOf, hx, Option.map_none] at h
    cases h with
    | absent hS => exact absurd hS hne
    | gone hborn => exact Nat.lt_of_not_le (of_decide_eq_false hborn)

/-- As long as no final packet has been sent, the thread that would read it runs. -/
lemma reading_of_served (h : LineOf t m) (hended : ¬Ended t m.d.trace)
    (hx : m.d.transports t = some x) (hwait : (t, .register) ∉ m.d.registration) :
    x.input = .reading := by
  rw [LineOf, hx, Option.map_some] at h
  generalize hl : OutgoingPath.look x = l at h
  have hin : x.input = l.input := by rw [← hl]; rfl
  rw [hin]
  cases h with
  | silent l hS hW hln hh hin hdorm hread =>
    exact hread.resolve_right fun hno => hwait (of_decide_eq_true hno)
  | greeting l q hS hW hln hh hq hin hdorm hread => exact hread
  | flowing l taken hflows =>
    by_contra hno
    obtain ⟨before, p, htaken, hp, -⟩ := hflows.left hno
    refine hended ⟨p, ?_, hp⟩
    rw [hflows.sent, htaken]
    simp

/-- A packet that is being handled was received. -/
def Recorded (t : TAddr) (m : Moment) : Prop :=
  ∀ p, m.handling = some (t, some p) → .received t p ∈ m.d.trace

lemma recorded_effect (he : Effect e D₀ m m') (h : Recorded t m) : Recorded t m' := by
  have htrace : ∀ o ∈ m.d.trace, o ∈ m'.d.trace := fun o ho => he.trace_suffix.subset ho
  intro p hp
  cases he
  case receive u x q rest hx hq hidle =>
    cases hp
    exact List.mem_cons_self
  case finish => cases hp
  case verified => cases hp
  all_goals exact htrace _ (h p hp)

/-- A packet is sent. -/
lemma Quieted.send {via : Option Addr} {p : Apacket} {u : TAddr} (h : Quieted t m)
    (hnew : u = t → p.isFinalSync = true → Quiet t m.handling x)
    (hx : m.d.transports u = some x)
    (hT : m'.d.transports = update m.d.transports u (some { x with toInput := x.toInput ++ [p] }))
    (hH : m'.handling = m.handling) (htrace : m'.d.trace = .sent u via p :: m.d.trace) :
    Quieted t m' := by
  by_cases hfinal : u = t ∧ p.isFinalSync = true
  · obtain ⟨rfl, hfinal⟩ := hfinal
    intro _ z hz
    rw [hT, update_self, Option.some.injEq] at hz
    have hq := hnew rfl hfinal
    rw [hH, ← hz]
    exact { hq with }
  · refine h.assign (fun hended => ?_) hx hT hH fun _ hq => { hq with }
    rw [htrace] at hended
    exact ended_of_sent (fun hut => by simpa [hut] using hfinal) hended

/-- A step of `output_thread` of a quiet transport. -/
lemma Quiet.output {packet : Option Apacket} {D : Daemon} {y : Atransport} {L : Loop FdeId}
    {R : List (TAddr × RegAction)} {os : List Obs} (h : Quiet t none x)
    (hstep : OutputStep packet t D x y L R os) : Quiet t none y := by
  obtain ⟨hstart, hread, hsync⟩ := h.late
  have hframe := hstep.frame
  have hkeep : y.toMain = x.toMain ∧ Late y.output := by
    cases hstep with
    | greet p hno => exact absurd hno hstart
    | push p hno => exact absurd hno hread
    | ended i hno => exact absurd hno hread
    | sync p hno => exact absurd hno hsync
    | fail token i hno => exact (hno.elim hstart fun hno => hno.elim hread hsync).elim
    | test pc hno hpc => rcases hpc with rfl | ⟨rfl, -⟩ <;> exact ⟨rfl, nofun, nofun, nofun⟩
    | lock => exact ⟨rfl, nofun, nofun, nofun⟩
    | kick z L os hno hkick =>
      rw [hkick.frame]
      exact ⟨rfl, nofun, nofun, nofun⟩
    | unref y L R os hno hunref =>
      rw [hunref.frame]
      exact ⟨rfl, nofun, nofun, nofun⟩
  refine ⟨?_, ?_, hkeep.1.trans h.empty, hkeep.2, nofun, nofun⟩
  · rw [hframe]
    exact h.offline
  · rw [hframe]
    exact h.streams

/-- Once the final packet has been sent, every change leaves its transport quiet. -/
theorem quieted_effect (he : Effect e D₀ m m') (hwf : Wf m) (hline : LineOf t m)
    (hin : Incoming True t reads m.d) (hreads : ∀ c ∈ reads, ¬Final c) (hrec : Recorded t m)
    (hok : FrameworkOk e D₀ t → ∀ x, m.d.transports t = some x → x.input ≠ .done)
    (h : Quieted t m) : Quieted t m' := by
  have hdata : ∀ {p : Apacket} {c : UInt32}, c ≠ aSync → p.msg.command = c →
      p.isFinalSync = false :=
    fun hc hcmd => not_final_of_command (by rw [hcmd]; exact hc)
  have hstream : ∀ {u : TAddr} {x : Atransport} {r : Addr} {p : Apacket} {q s : Asocket},
      m.SendsTo u x r q p s → p.isFinalSync = false := fun hto => hdata (by decide) hto.command
  cases he
  case note o ho =>
    refine h.congr (fun hended => ended_of_unsent hended ?_) rfl fun _ => id
    cases o <;> trivial
  case finish hecho => exact h.congr id rfl nofun
  case receive u x p rest hx hp hidle =>
    intro hended z hz
    have hended' : Ended t m.d.trace := ended_of_unsent hended trivial
    change update m.d.transports u _ t = some z at hz
    by_cases htu : t = u
    · subst htu
      have hempty := (h hended' x hx).empty
      rw [hp] at hempty
      cases hempty
    · rw [update_of_ne htu] at hz
      refine { h hended' z hz with unserved := fun q hq => ?_, alive := fun q hq => ?_ }
      all_goals
        cases hq
        exact absurd rfl htu
  case send via p u x hx hmay hopen habout hcmd hsync =>
    refine h.send (fun hut hfinal => ?_) hx rfl rfl rfl
    subst hut
    obtain ⟨q, hq, hqfinal, hoffline, hnil⟩ := hsync hfinal
    obtain ⟨hempty, hlate⟩ := last_handled hin hreads (hrec q hq) hqfinal hx
    have hqcmd : q.msg.command = aSync := (final_content hqfinal).1
    by_cases hended : Ended u m.d.trace
    · exact h hended x hx
    · refine ⟨hoffline, hnil, hempty, hlate, fun p hp => ?_, fun _ _ => ?_⟩
      · cases hq.symm.trans hp
        exact hqcmd
      · rw [reading_of_served hline hended hx (hwf.queue.served u q hq).1]
        decide
  case okay a r s q p u x ha hs hq hp hr hx hmay hopen howed hcmd hid hdest =>
    refine h.send (fun _ hfinal => ?_) hx rfl rfl rfl
    rw [hdata (by decide) hcmd] at hfinal
    cases hfinal
  case tweak u x x' hx hx' =>
    refine h.assign id hx rfl rfl fun _ hq => ?_
    rw [hx']
    exact { hq with }
  case offline u x hx => exact h.assign id hx rfl rfl fun _ hq => { hq with offline := rfl }
  case down u x hx hidle => exact h.assign id hx rfl rfl fun _ hq => { hq with }
  case up u x hx hserve hopen => exact h.assign id hx rfl rfl fun _ hq => { hq with }
  case verified u x hx hidle hverified =>
    intro hended z hz
    have hended' : Ended t m.d.trace := ended_of_unsent hended trivial
    change update m.d.transports u _ t = some z at hz
    by_cases htu : t = u
    · subst htu
      rw [update_self, Option.some.injEq] at hz
      subst hz
      exact { h hended' x hx with
        unserved := nofun
        alive := fun _ _ => hok hverified x hx }
    · rw [update_of_ne htu] at hz
      refine { h hended' z hz with unserved := nofun, alive := fun q hq => ?_ }
      cases hq
      exact absurd rfl htu
  case banner u x text hx hserve =>
    refine h.assign id hx rfl rfl fun hut hq => ?_
    exact absurd (hut ▸ hserve) hq.not_serving
  case dropRemote r s u x hs hr hops ht hx =>
    refine h.assign id hx rfl rfl fun _ hq => { hq with streams := ?_ }
    show x.disconnects.erase r = []
    rw [hq.streams]
    rfl
  case pair a s id u x hs hp hc hli hin' hnew hx hserve hon opened hopened =>
    refine h.assign (fun hended => ?_) hx rfl rfl fun hut hq => ?_
    · cases opened
      · exact ended_of_unsent hended trivial
      · exact ended_of_unsent (ended_of_unsent hended trivial) trivial
    · exact absurd (hut ▸ hserve) hq.not_serving
  case wrteRead a r s q p u x ev L ha hs hops hp hto hi hset hev hread hwrite hevents hsub hb _ =>
    refine h.assign (fun hended => ?_) hto.alive rfl rfl fun _ hq => { hq with }
    have hread := ended_of_sent (fun _ => hstream hto) hended
    exact ended_of_unsent hread trivial
  case wrteJdwp a r s q p u x ha hs hops hp hto hpass =>
    exact h.assign (ended_of_sent fun _ => hstream hto) hto.alive rfl rfl fun _ hq => { hq with }
  case wrteTracker a r s q p u x ha hs hops hp hto hneed =>
    exact h.assign (ended_of_sent fun _ => hstream hto) hto.alive rfl rfl fun _ hq => { hq with }
  case register x hx hown =>
    intro hended z hz
    have hended' : Ended t m.d.trace := ended_of_unsent hended trivial
    have hne : t ≠ m.d.nextTAddr := Nat.ne_of_lt (born_of_ended hline hwf hended')
    change update m.d.transports m.d.nextTAddr _ t = some z at hz
    rw [update_of_ne hne] at hz
    exact h hended' z hz
  case enlist u x rest hreg hx hstate =>
    refine h.assign (fun hended => ended_of_unsent hended trivial) hx rfl rfl fun _ hq => ?_
    exact { hq with streams := rfl }
  case start u x rest n k L M hreg hx hn hk hnk hL hM =>
    intro hended z hz
    have hended' : Ended t m.d.trace := ended_of_unsent hended trivial
    change update m.d.transports u _ t = some z at hz
    by_cases htu : t = u
    · subst htu
      exact absurd (hreg ▸ List.mem_cons_self) (flows_of_ended hline hended' hx)
    · rw [update_of_ne htu] at hz
      exact h hended' z hz
  case unplug u x rest L hreg hx hrem hsame hL own own' =>
    obtain ⟨os, htrace, hos⟩ := unplug_trace own own'
      (has (m.d.loop.mem (.transport u)).state fdeActive) m.d.trace
    refine h.congr (fun hended => ?_) rfl fun _ => id
    refine ended_of_append (htrace ▸ hended) fun o ho => ?_
    rcases hos o ho with ⟨d, i, b, rfl⟩ | rfl <;> trivial
  case freeTransport u x hidle hx hd hrem hhist hreg hi =>
    intro hended z hz
    change update m.d.transports u none t = some z at hz
    by_cases htu : t = u
    · rw [htu, update_self] at hz
      cases hz
    · rw [update_of_ne htu] at hz
      exact h hended z hz
  case output u x y L R os n hidle hx hact hstep =>
    have hout : ∀ o ∈ os, Unsent o := fun o ho => unsent_of_thread (hstep.ofThread ho)
    refine h.assign (fun hended => ended_of_append hended hout) hx rfl rfl fun hut hq => ?_
    subst hut
    rw [hidle] at hq ⊢
    exact hq.output hstep
  case input u x y L R os n hidle hx hstart hstep =>
    have hout : ∀ o ∈ os, Unsent o := fun o ho => unsent_of_thread (hstep.ofThread ho)
    refine h.assign (fun hended => ended_of_append hended hout) hx rfl rfl fun _ hq => ?_
    rw [hidle] at hq ⊢
    rw [hstep.frame]
    exact { hq with unserved := nofun, alive := nofun }
  case closedAll u x hidle hx hpc =>
    refine h.assign id hx rfl rfl fun _ hq => ?_
    rw [hidle] at hq ⊢
    exact { hq with unserved := nofun, alive := nofun }
  all_goals exact h.congr id rfl fun _ => id

/-- A thread that reads when a step begins has not ended in the middle of it. -/
lemma alive_kept (t : TAddr) :
    Kept (fun _ D => ∃ x, D.transports t = some x ∧ x.input = .reading) fun m =>
      t < m.d.nextTAddr ∧
        ∀ x, m.d.transports t = some x → x.input ∈ [.reading, .closeAll, .kickTest] := by
  rintro e D m m' ⟨x₀, hx₀, hread⟩ - - - - ⟨hborn, h⟩ he
  have hassign : ∀ {u : TAddr} {x y z : Atransport}, m.d.transports u = some x →
      (u = t → y.input = x.input ∨ y.input ∈ [.reading, .closeAll, .kickTest]) →
      update m.d.transports u (some y) t = some z → z.input ∈ [.reading, .closeAll, .kickTest] := by
    intro u x y z hx hy hz
    by_cases htu : t = u
    · subst htu
      rw [update_self, Option.some.injEq] at hz
      subst hz
      rcases hy rfl with hsame | hmem
      · rw [hsame]
        exact h x hx
      · exact hmem
    · rw [update_of_ne htu] at hz
      exact h z hz
  cases he
  case receive u x p rest hx hp hidle => exact ⟨hborn, fun z => hassign hx fun _ => .inl rfl⟩
  case send via p u x hx hmay hopen habout hcmd hsync =>
    exact ⟨hborn, fun z => hassign hx fun _ => .inl rfl⟩
  case okay a r s q p u x ha hs hq hp hr hx hmay hopen howed hcmd hid hdest =>
    exact ⟨hborn, fun z => hassign hx fun _ => .inl rfl⟩
  case tweak u x x' hx hx' =>
    exact ⟨hborn, fun z => hassign hx fun _ => .inl (by rw [hx'])⟩
  case offline u x hx => exact ⟨hborn, fun z => hassign hx fun _ => .inl rfl⟩
  case down u x hx hidle => exact ⟨hborn, fun z => hassign hx fun _ => .inl rfl⟩
  case up u x hx hserve hopen => exact ⟨hborn, fun z => hassign hx fun _ => .inl rfl⟩
  case verified u x hx hidle hok => exact ⟨hborn, fun z => hassign hx fun _ => .inl rfl⟩
  case banner u x text hx hserve =>
    refine ⟨hborn, fun z => hassign hx fun _ => .inl ?_⟩
    obtain ⟨p, m, d, c, heq⟩ := parseBanner_eq text x
    rw [heq]
  case dropRemote r s u x hs hr hops ht hx => exact ⟨hborn, fun z => hassign hx fun _ => .inl rfl⟩
  case pair a s i u x hs hp hc hli hin hnew hx hserve hon opened hopened =>
    exact ⟨hborn, fun z => hassign hx fun _ => .inl rfl⟩
  case wrteRead a r s q p u x ev L ha hs hops hp hto hi hset hev hread' hwrite hevents hsub hb _ =>
    exact ⟨hborn, fun z => hassign hto.alive fun _ => .inl rfl⟩
  case wrteJdwp a r s q p u x ha hs hops hp hto hpass =>
    exact ⟨hborn, fun z => hassign hto.alive fun _ => .inl rfl⟩
  case wrteTracker a r s q p u x ha hs hops hp hto hneed =>
    exact ⟨hborn, fun z => hassign hto.alive fun _ => .inl rfl⟩
  case register x hx hown =>
    refine ⟨Nat.lt_succ_of_lt hborn, fun z hz => h z ?_⟩
    change update m.d.transports m.d.nextTAddr _ t = some z at hz
    rwa [update_of_ne (Nat.ne_of_lt hborn)] at hz
  case enlist u x rest hreg hx hstate => exact ⟨hborn, fun z => hassign hx fun _ => .inl rfl⟩
  case start u x rest n k L M hreg hx hn hk hnk hL hM =>
    exact ⟨hborn, fun z => hassign hx fun _ => .inr List.mem_cons_self⟩
  case freeTransport u x hidle hx hd hrem hhist hreg hi =>
    refine ⟨hborn, fun z hz => h z ?_⟩
    change update m.d.transports u none t = some z at hz
    by_cases htu : t = u
    · rw [htu, update_self] at hz
      cases hz
    · rwa [update_of_ne htu] at hz
  case output u x y L R os n hidle hx hact hstep =>
    refine ⟨hborn, fun z => hassign hx fun _ => .inl ?_⟩
    rw [hstep.frame]
  case input u x y L R os n hidle hx hstart hstep =>
    refine ⟨hborn, fun z => hassign hx fun hut => .inr ?_⟩
    subst hut
    have hpc : x.input = .reading := by
      rw [hx₀, Option.some.injEq] at hstart
      exact hstart.1 ▸ hread
    cases hstep with
    | take p rest => simp [hpc]
    | final p rest => simp
    | eof => simp
    | test pc hno => simp [hpc] at hno
    | lock hno => simp [hpc] at hno
    | kick z L os hno => simp [hpc] at hno
    | unref z L R os hno => simp [hpc] at hno
  case closedAll u x hidle hx hpc =>
    exact ⟨hborn, fun z => hassign hx fun _ => .inr (by simp)⟩
  all_goals exact ⟨hborn, h⟩

end Changes

/-! ## Runs -/

/-- The step leaves the handshake of `t` alone: it closes no pair by a number that has been given
away, reads no final `A_SYNC` from the remote, and delivers the framework's `OK` for `t` only while
`input_thread` reads. -/
structure Shuts (t : TAddr) (e : Event) (D : Daemon) : Prop where
  own : NoStray e D
  remote : ∀ p, e.action = .output t → e.io.packet = some p → p.isFinalSync = false
  confirmed : FrameworkOk e D t → ∃ x, D.transports t = some x ∧ x.input = .reading

/-- What is kept about `t`, given what has been read from its remote. -/
structure Steady (t : TAddr) (reads : List (Amessage × List UInt8)) (m : Moment) : Prop where
  config : m.d.config.host = false
  life : Teardown.Life t m.d
  line : LineOf t m
  incoming : Incoming True t reads m.d
  recorded : Recorded t m
  quieted : Quieted t m

/-- What holds between the steps of a run. -/
def Sound (t : TAddr) (D : Daemon) : Prop :=
  Wf { d := D } ∧ InOrder D ∧ (D.config.host = false →
    ∃ reads, (∀ c ∈ reads, ¬Final c) ∧ Steady t reads { d := D })

section Runs

variable {t : TAddr} {e : Event} {D D' : Daemon} {reads : List (Amessage × List UInt8)}
  {es : List Event}

lemma pairHeld_of_owned (h : Owned D) (t : TAddr) (e : Event) : PairHeld t e D := by
  intro x hx hrun
  have hnear := h _ _ (.near t x hx hrun)
  have hfar := h _ _ (.far t x hx hrun)
  rw [Daemon.pairOpen, holds_iff.mpr hnear, holds_iff.mpr hfar]
  rfl

/-- Every change of a step that is not one of `output_thread` keeps it. -/
lemma steady_kept (hreads : ∀ c ∈ reads, ¬Final c) :
    Kept (fun e D => Owned D ∧ Shuts t e D ∧ e.action ≠ .output t) (Steady t reads) := by
  rintro e D m m' ⟨howned, hshuts, hact⟩ hw hinv hpath hwf h he
  have hline := OutgoingPath.line_kept t e D m m' (pairHeld_of_owned howned t e) hw
    ⟨hinv.life, fun _ => hinv.line⟩ hpath hwf ⟨h.life, fun _ => h.line⟩ he
  have hhost : m'.d.config.host = false := he.config ▸ h.config
  refine ⟨hhost, hline.1, hline.2 hhost, IncomingPath.incoming_effect he hwf hact h.incoming,
    recorded_effect he h.recorded, ?_⟩
  refine quieted_effect he hwf h.line h.incoming hreads h.recorded (fun hok x hx => ?_) h.quieted
  obtain ⟨x₀, hx₀, hread⟩ := hshuts.confirmed hok
  have halive := (alive_kept t).path ⟨x₀, hx₀, hread⟩ hw
    ⟨hw.queue.fresh t x₀ hx₀, fun y hy => ?_⟩ hpath
  · rintro hdone
    have hmem := halive.2 x hx
    rw [hdone] at hmem
    exact absurd hmem (by decide)
  · rw [hx₀, Option.some.injEq] at hy
    rw [← hy, hread]
    decide

/-- A step of `output_thread`. -/
lemma quieted_output (hs : D.step e = .ok D') (hact : e.action = .output t)
    (h : Quieted t { d := D }) : Quieted t { d := D' } := by
  rw [step, hact] at hs
  change (if (D.transports t).isSome then Daemon.outputThread t { D with io := e.io }
    else .error .disabled) = .ok D' at hs
  split at hs
  case isFalse => cases hs
  case isTrue hsome =>
    obtain ⟨x, hx⟩ := Option.isSome_iff_exists.mp hsome
    obtain ⟨y, L, R, os, n, hstep, rfl⟩ := outputThread_ok (D := { D with io := e.io }) hx hs
    have hout : ∀ o ∈ os, Unsent o := fun o ho => unsent_of_thread (hstep.ofThread ho)
    exact h.assign (fun hended => ended_of_append hended hout) hx rfl rfl fun _ hq =>
      hq.output hstep

/-- `output_thread` sends nothing. -/
lemma output_stops {u : TAddr} (hact : e.action = .output u) :
    D.step e ≠ .error (.cannotEnqueue t) := by
  intro hs
  rw [step, hact] at hs
  change (if (D.transports u).isSome then Daemon.outputThread u { D with io := e.io }
    else .error .disabled) = .error (.cannotEnqueue t) at hs
  split at hs
  case isFalse => cases hs
  case isTrue hsome =>
    obtain ⟨x, hx⟩ := Option.isSome_iff_exists.mp hsome
    have hruns : Runs u id (Daemon.outputThread u { D with io := e.io }) := outputThread_runs hx
    obtain ⟨-, y, hy, -⟩ := hruns.error hs { d := { D with transports := fun _ => none } }
    cases hy

/-- A step keeps it, given what it has read. -/
lemma steady_step (hwf : Wf { d := D }) (howned : Owned D) (hshuts : Shuts t e D)
    (hs : D.step e = .ok D') (hreads : ∀ c ∈ reads, ¬Final c) (h : Steady t reads { d := D }) :
    (∀ c ∈ reads ++ readFrom t e D, ¬Final c) ∧
      Steady t (reads ++ readFrom t e D) { d := D' } := by
  by_cases hact : e.action = .output t
  · have hheld := pairHeld_of_owned howned t e
    have hline := (OutgoingPath.line_kept t).step hheld hwf ⟨h.life, fun _ => h.line⟩ hs
    have hhost : D'.config.host = false := by
      rw [config_of_path (path_of_step hwf hs)]
      exact h.config
    refine ⟨fun c hc => ?_, hhost, hline.1, hline.2 hhost,
      IncomingPath.incoming_step hwf (fun _ => hheld) hs h.incoming, nofun,
      quieted_output hs hact h.quieted⟩
    rcases List.mem_append.mp hc with hc | hc
    · exact hreads c hc
    · rw [readFrom] at hc
      split at hc
      · obtain ⟨p, hp, rfl⟩ := by simpa using hc
        rintro ⟨hcmd, harg⟩
        have hfinal := hshuts.remote p hact hp
        rw [Apacket.isFinalSync, show p.msg.command = aSync from hcmd,
          show p.msg.arg0 = 0 from harg] at hfinal
        cases hfinal
      · cases hc
  · rw [readFrom, if_neg fun hno => hact hno.1, List.append_nil]
    have hC : Owned D ∧ Shuts t e D ∧ e.action ≠ .output t := ⟨howned, hshuts, hact⟩
    exact ⟨hreads, (steady_kept hreads).step hC hwf h hs⟩

lemma sound_of_reachableBy (h : ReachableBy (Shuts t) D) : Sound t D := by
  obtain ⟨config, fds, inUse, D₀, es, hmain, hC, hrun⟩ := h
  refine @run_invariant _ _ _ Daemon.step (Shuts t) (Sound t) (fun e D D' hD hshuts hs => ?_)
    es D₀ D ⟨wf_adbMain hmain, inOrder_adbMain hmain, ?_⟩ hC hrun
  · obtain ⟨hwf, hinorder, hsteady⟩ := hD
    refine ⟨wf_of_step hwf hs, inOrder_kept.step hshuts.own hwf hinorder hs, fun hhost => ?_⟩
    rw [config_of_path (path_of_step hwf hs)] at hhost
    obtain ⟨reads, hreads, h⟩ := hsteady hhost
    exact ⟨_, steady_step hwf hinorder.owned hshuts hs hreads h⟩
  · intro hhost
    have hlinked : ¬AuthLinked t D₀.loop := OutgoingPath.not_authLinked hmain
    obtain ⟨L, O, I, rfl⟩ := adbMain_eq hmain
    refine ⟨[], nofun, hhost, ?_, .absent rfl rfl hlinked rfl, ?_, nofun, nofun⟩
    · rw [Teardown.Life, decide_eq_false (Nat.not_lt_zero t)]
      exact .unborn
    · refine ⟨fun _ => ⟨rfl, rfl⟩, fun _ => ⟨rfl, rfl⟩, fun l hl => ?_, fun _ => ⟨0, ?_⟩⟩
      · cases hl
      · exact List.nil_prefix

/-- In a moment when something may be sent to a transport, its `input_thread` has not ended. -/
lemma Steady.not_done {m : Moment} {x : Atransport} (h : Steady t reads m) (hwf : Wf m)
    (hx : m.d.transports t = some x) (hmay : m.MaySend t) : x.input ≠ .done := by
  intro hdone
  by_cases hended : Ended t m.d.trace
  · exact (h.quieted hended x hx).not_maySend hwf hx hdone hmay
  · have hline := h.line
    rw [LineOf, hx, Option.map_some] at hline
    have hnone := OutgoingPath.not_maySend hwf hx
    have hread : (OutgoingPath.look x).input ≠ .reading := by
      intro hno
      rw [show x.input = .reading from hno] at hdone
      cases hdone
    generalize OutgoingPath.look x = l at hline hnone hread
    cases hline with
    | silent l hS hW hln hh hin hdorm => exact hnone hdorm hh hmay
    | greeting l q hS hW hln hh hq hin hdorm hreading => exact hread hreading
    | flowing l taken hflows =>
      obtain ⟨before, p, htaken, hp, -⟩ := hflows.left hread
      refine hended ⟨p, ?_, hp⟩
      rw [hflows.sent, htaken]
      simp

/-- As long as the handshake is left alone, the daemon never ends because it cannot write to a
transport: nothing is sent once the pair has been closed. -/
theorem never_sends_late (h : ReachableBy (Shuts t) D) (hhost : D.config.host = false)
    (hshuts : Shuts t e D) : D.step e ≠ .error (.cannotEnqueue t) := by
  intro hs
  obtain ⟨hwf, hinorder, hsound⟩ := sound_of_reachableBy h
  obtain ⟨reads, hreads, hsteady⟩ := hsound hhost
  by_cases hact : e.action = .output t
  · exact output_stops hact hs
  · obtain ⟨m, hpath, hmay, x, hx, hclosed⟩ := stops_of_step hwf hs
    have hm : Steady t reads m :=
      (steady_kept hreads).path ⟨hinorder.owned, hshuts, hact⟩ hwf hsteady hpath
    have hheld : Owned m.d := (inOrder_kept.path hshuts.own hwf hinorder hpath).owned
    have hrun : x.running ≠ 0 :=
      running_of_input (hm.not_done (wf_of_path hpath hwf) hx hmay)
    have hopen := pairHeld_of_owned hheld t e x hx hrun
    rw [Daemon.pairOpen, Bool.and_eq_true] at hopen
    rcases hclosed with hno | hno
    · exact absurd (hopen.2.symm.trans hno) (by decide)
    · exact absurd (hopen.1.symm.trans hno) (by decide)

end Runs

/-! ## A run -/

/-- `Shuts`, as a test. -/
def shuts (t : TAddr) (e : Event) (D : Daemon) : Bool :=
  noStray e D && (e.action ≠ .output t || e.io.packet.all fun p => !p.isFinalSync) &&
    match D.delivered e with
    | some (.auth u, _, _) => u ≠ t || (D.transports t).any fun x => x.input = .reading
    | _ => true

lemma shuts_of_test {t : TAddr} {e : Event} {D : Daemon} (h : shuts t e D = true) :
    Shuts t e D := by
  rw [shuts, Bool.and_eq_true, Bool.and_eq_true] at h
  obtain ⟨⟨hown, hremote⟩, hconfirmed⟩ := h
  refine ⟨noStray_of_test hown, fun p hact hp => ?_, ?_⟩
  · simpa [hact, hp] using hremote
  · rintro ⟨ev, rs, hdel, -⟩
    rw [hdel] at hconfirmed
    simpa [Option.any_eq_true] using hconfirmed

/-- A host is greeted, its connection ends, and both threads go through the handshake; the message
that the pair is closed waits for the main loop. -/
def wholeHandshake : List Event :=
  connect 0 10 11 12 ++ OutgoingPath.greet 0 11 ++ List.replicate 6 ⟨.output 0, {}⟩ ++
    handleNext 11 {} ++ List.replicate 6 ⟨.input 0, {}⟩ ++
    [⟨.epollWait [(4, ⟨true, false, false⟩)], {}⟩]

/-- The theorem after that run: the far end of the pair is closed, and the daemon goes on. -/
theorem never_sends_late_closed : ∃ D, ReachableBy (Shuts 0) D ∧
    D.holds 12 (.transportFd 0) = false ∧
    D.step ⟨.dispatch, {}⟩ ≠ .error (.cannotEnqueue 0) := by
  obtain ⟨D, hD, hshows⟩ := @exists_reachableBy (Shuts 0) (Bool × Bool × Bool) unlocked
    [3, 4, 6, 7, 8, 9] (fun _ => false) wholeHandshake (shuts 0)
    (fun D => (D.config.host, D.holds 12 (.transportFd 0), shuts 0 ⟨.dispatch, {}⟩ D))
    (false, false, true) (fun e D _ hc => shuts_of_test hc) (by decide +kernel)
  simp only [Prod.mk.injEq] at hshows
  obtain ⟨hhost, hclosed, htest⟩ := hshows
  exact ⟨D, hD, hclosed, never_sends_late hD hhost (shuts_of_test htest)⟩

end Adbd.Shutdown
