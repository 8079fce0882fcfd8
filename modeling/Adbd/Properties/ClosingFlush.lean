import Adbd.Properties.PeerLinks

/-!
# The flush of a closing socket

A socket that is closed while packets are queued on it is not destroyed: it is moved to
`local_socket_closing_list`, `FDE_READ` is taken off, and it is destroyed when its queue has been
written.  But `fdevent_set` removes from the pending events those that are subscribed to, not
those that no longer are.  So a read event that was pending when the socket was closed is
delivered all the same, and if the read ends in an end of file or an error, the socket is closed
a second time and destroyed with what is left.
-/

namespace Adbd.ClosingFlush

open Function FlagWord Transition Relation Daemon PeerLinks

/-- What was queued on `a` when it was moved to `local_socket_closing_list`, and what has been
written of it since. -/
def flushOf (a : Addr) : List Obs → Option (List UInt8 × List UInt8)
  | [] => none
  | .closing b bs :: os => if b = a then some (bs, []) else flushOf a os
  | .wrote b bs :: os =>
    if b = a then (flushOf a os).map fun f => (f.1, f.2 ++ bs) else flushOf a os
  | _ :: os => flushOf a os

/-- What was queued on `a` when it was destroyed. -/
def leftBy (a : Addr) (os : List Obs) : List (List UInt8) :=
  os.filterMap fun
    | .destroyed b bs => if b = a then some bs else none
    | _ => none

/-- Nothing that is queued on the local socket `a` is lost when it is closed. -/
structure Flushes (a : Addr) (D : Daemon) : Prop where
  /-- A socket that is closing was moved with what it had queued. -/
  moved : ∀ s, D.sockets a = some s → s.closing = true → (flushOf a D.trace).isSome
  /-- It is written in order; what is not written yet is still queued. -/
  inOrder : ∀ s q w, D.sockets a = some s → flushOf a D.trace = some (q, w) →
    s.ops.isFd = true ∧ s.closing = true ∧ q = w ++ s.queued
  /-- When the socket is gone, all of it has been written. -/
  complete : ∀ q w, D.sockets a = none → flushOf a D.trace = some (q, w) → w = q
  /-- No socket is destroyed with anything queued. -/
  destroyed : ∀ bs ∈ leftBy a D.trace, bs = []
  unborn : D.nextAddr ≤ a → flushOf a D.trace = none

/-! ## Changes to the socket -/

section Changes

variable {a b : Addr} {D D' : Daemon} {s s' : Asocket} {bs : List UInt8} {os tr : List Obs}

/-- Observations that are no part of a flush. -/
def Silent (a : Addr) : Obs → Prop
  | .closing b _ => b ≠ a
  | .wrote b _ => b ≠ a
  | .destroyed b _ => b ≠ a
  | _ => True

lemma flushOf_append (h : ∀ o ∈ os, Silent a o) : flushOf a (os ++ tr) = flushOf a tr := by
  induction os with
  | nil => rfl
  | cons o os ih =>
    have ho := h o List.mem_cons_self
    have hos := ih fun o ho => h o (List.mem_cons_of_mem _ ho)
    rw [List.cons_append]
    cases o with
    | closing b bs => exact (if_neg ho).trans hos
    | wrote b bs => exact (if_neg ho).trans hos
    | _ => exact hos

lemma leftBy_append (h : ∀ o ∈ os, Silent a o) : leftBy a (os ++ tr) = leftBy a tr := by
  rw [leftBy, List.filterMap_append, List.filterMap_eq_nil_iff.mpr ?_, List.nil_append, leftBy]
  intro o ho
  have hsilent := h o ho
  cases o with
  | destroyed b bs => exact if_neg hsilent
  | _ => rfl

lemma flushOf_wrote : flushOf a (.wrote a bs :: tr) =
    (flushOf a tr).map fun f => (f.1, f.2 ++ bs) := if_pos rfl

lemma flushOf_closing : flushOf a (.closing a bs :: tr) = some (bs, []) := if_pos rfl

lemma Flushes.congr (h : Flushes a D) (hS : D'.sockets a = D.sockets a)
    (hN : D.nextAddr ≤ D'.nextAddr) (hF : flushOf a D'.trace = flushOf a D.trace)
    (hL : leftBy a D'.trace = leftBy a D.trace) : Flushes a D' := by
  constructor
  · rw [hS, hF]
    exact h.moved
  · rw [hS, hF]
    exact h.inOrder
  · rw [hS, hF]
    exact h.complete
  · rw [hL]
    exact h.destroyed
  · rw [hF]
    exact fun hle => h.unborn (hN.trans hle)

lemma Flushes.append (h : Flushes a D) (hos : ∀ o ∈ os, Silent a o)
    (hS : D'.sockets = D.sockets) (hN : D'.nextAddr = D.nextAddr)
    (htrace : D'.trace = os ++ D.trace) : Flushes a D' :=
  h.congr (by rw [hS]) hN.ge (by rw [htrace, flushOf_append hos])
    (by rw [htrace, leftBy_append hos])

lemma silent_of_thread {t : TAddr} {o : Obs} (h : o.ofThread t) : Silent a o := by
  cases o <;> trivial

/-- A socket that is not closing has not been moved. -/
lemma Flushes.idle (h : Flushes a D) (hs : D.sockets a = some s) (hc : s.closing = false) :
    flushOf a D.trace = none := by
  rw [Option.eq_none_iff_forall_ne_some]
  rintro ⟨q, w⟩ hF
  cases hc.symm.trans (h.inOrder s q w hs hF).2.1

lemma Flushes.of_idle (h : Flushes a D) (hS : D'.sockets a = some s') (hc : s'.closing = false)
    (hF : flushOf a D'.trace = none) (hL : leftBy a D'.trace = leftBy a D.trace) :
    Flushes a D' := by
  refine ⟨fun s hs hclosing => ?_, fun s q w _ hno => ?_, fun q w hno => ?_, hL ▸ h.destroyed,
    fun _ => hF⟩
  · rw [hS, Option.some.injEq] at hs
    cases hc.symm.trans (hs ▸ hclosing)
  · rw [hF] at hno
    cases hno
  · rw [hS] at hno
    cases hno

/-- Assigning to fields of a socket that have nothing to do with a flush. -/
lemma Flushes.assign (h : Flushes a D) (hs : D.sockets b = some s)
    (hS : D'.sockets = update D.sockets b (some s')) (hk : s'.ops.isFd = s.ops.isFd)
    (hc : s'.closing = s.closing) (hq : s'.queued = s.queued) (hN : D'.nextAddr = D.nextAddr)
    (hF : flushOf a D'.trace = flushOf a D.trace)
    (hL : leftBy a D'.trace = leftBy a D.trace) : Flushes a D' := by
  by_cases hab : a = b
  · subst hab
    have hself : D'.sockets a = some s' := by rw [hS, update_self]
    have hself' : ∀ z, D'.sockets a = some z → z = s' := by
      intro z hz
      rw [hself, Option.some.injEq] at hz
      exact hz.symm
    refine ⟨fun z hz hclosing => ?_, fun z q w hz hsome => ?_, fun q w hno => ?_,
      hL ▸ h.destroyed, hN ▸ hF ▸ h.unborn⟩
    · rw [hF]
      exact h.moved s hs (hc ▸ hself' z hz ▸ hclosing)
    · rw [hself' z hz, hk, hc, hq]
      exact h.inOrder s q w hs (hF ▸ hsome)
    · rw [hself] at hno
      cases hno
  · exact h.congr (by rw [hS, update_of_ne hab]) hN.ge hF hL

/-- The queue of a socket that is not closing changes. -/
lemma Flushes.requeue (h : Flushes a D) (hs : D.sockets b = some s) (hc : s.closing = false)
    (hS : D'.sockets = update D.sockets b (some s')) (hc' : s'.closing = false)
    (hN : D.nextAddr ≤ D'.nextAddr)
    (hF : b ≠ a ∨ flushOf a D.trace = none → flushOf a D'.trace = flushOf a D.trace)
    (hL : leftBy a D'.trace = leftBy a D.trace) : Flushes a D' := by
  by_cases hab : a = b
  · subst hab
    have hnone := h.idle hs hc
    exact h.of_idle (by rw [hS, update_self]) hc' ((hF (.inr hnone)).trans hnone) hL
  · exact h.congr (by rw [hS, update_of_ne hab]) hN (hF (.inl (Ne.symm hab))) hL

/-- A socket is made. -/
lemma Flushes.create (h : Flushes a D) (hc : s'.closing = false)
    (hS : D'.sockets = update D.sockets D.nextAddr (some s')) (hN : D.nextAddr ≤ D'.nextAddr)
    (hF : flushOf a D'.trace = flushOf a D.trace)
    (hL : leftBy a D'.trace = leftBy a D.trace) : Flushes a D' := by
  by_cases ha : a = D.nextAddr
  · exact h.of_idle (by rw [hS, ha, update_self]) hc (hF.trans (h.unborn ha.ge)) hL
  · exact h.congr (by rw [hS, update_of_ne ha]) hN hF hL

/-- A socket is made and paired with one that is not closing. -/
lemma Flushes.pair (h : Flushes a D) (hs : D.sockets b = some s) (hc : s.closing = false)
    (hb : b ≠ D.nextAddr) {z : Asocket}
    (hS : D'.sockets = update (update D.sockets D.nextAddr (some z)) b (some s'))
    (hz : z.closing = false) (hc' : s'.closing = false)
    (hN : D.nextAddr ≤ D'.nextAddr) (hF : flushOf a D'.trace = flushOf a D.trace)
    (hL : leftBy a D'.trace = leftBy a D.trace) : Flushes a D' := by
  have hmade : Flushes a { D with
      sockets := update D.sockets D.nextAddr (some z) } := h.create hz rfl le_rfl rfl rfl
  exact hmade.requeue ((update_of_ne hb ..).trans hs) hc hS hc' hN (fun _ => hF) hL

/-- A socket is freed that is not closing, or has nothing queued. -/
lemma Flushes.free (h : Flushes a D) (hs : D.sockets b = some s)
    (hS : D'.sockets = update D.sockets b none) (hempty : b = a → s.closing = true → s.pkts = [])
    (hN : D'.nextAddr = D.nextAddr) (hF : flushOf a D'.trace = flushOf a D.trace)
    (hL : leftBy a D'.trace = leftBy a D.trace) : Flushes a D' := by
  by_cases hab : a = b
  · subst hab
    have hdead : D'.sockets a = none := by rw [hS, update_self]
    refine ⟨fun z hz => ?_, fun z q w hz => ?_, fun q w _ hsome => ?_, hL ▸ h.destroyed,
      hN ▸ hF ▸ h.unborn⟩
    · rw [hdead] at hz
      cases hz
    · rw [hdead] at hz
      cases hz
    · obtain ⟨-, hc, hq⟩ := h.inOrder s q w hs (hF ▸ hsome)
      rw [Asocket.queued, hempty rfl hc, List.flatMap_nil, List.append_nil] at hq
      exact hq.symm
  · exact h.congr (by rw [hS, update_of_ne hab]) hN.ge hF hL

/-- A socket is destroyed with nothing queued. -/
lemma Flushes.destroy (h : Flushes a D) (hempty : b = a → bs = []) :
    Flushes a (D.emit (.destroyed b bs)) := by
  refine ⟨h.moved, h.inOrder, h.complete, fun cs hcs => ?_, h.unborn⟩
  by_cases hb : b = a
  · have hcons : leftBy a (D.emit (.destroyed b bs)).trace = bs :: leftBy a D.trace :=
      List.filterMap_cons_some (if_pos hb)
    rw [hcons] at hcs
    rcases List.mem_cons.mp hcs with rfl | hcs
    · exact hempty hb
    · exact h.destroyed cs hcs
  · have hcons : leftBy a (D.emit (.destroyed b bs)).trace = leftBy a D.trace :=
      List.filterMap_cons_none (if_neg hb)
    exact h.destroyed cs (hcons ▸ hcs)

/-- A socket is moved to `local_socket_closing_list`. -/
lemma Flushes.move (h : Flushes a D) (hs : D.sockets b = some s)
    (hS : D'.sockets = update D.sockets b (some s')) (hk : s'.ops.isFd = true)
    (hc : s'.closing = true) (hq : s'.queued = s.queued) (hb : b < D.nextAddr)
    (hN : D'.nextAddr = D.nextAddr)
    (htrace : D'.trace = .closing b s.queued :: D.trace) : Flushes a D' := by
  have hL : leftBy a D'.trace = leftBy a D.trace := by rw [htrace]; rfl
  by_cases hab : a = b
  · subst hab
    have hF : flushOf a D'.trace = some (s.queued, []) := by rw [htrace, flushOf_closing]
    have hself : D'.sockets a = some s' := by rw [hS, update_self]
    refine ⟨fun z hz _ => by rw [hF]; rfl, fun z q w hz hsome => ?_, fun q w hno => ?_,
      hL ▸ h.destroyed, fun hle => ?_⟩
    · rw [hself, Option.some.injEq] at hz
      rw [hF, Option.some.injEq, Prod.mk.injEq] at hsome
      obtain ⟨rfl, rfl⟩ := hsome
      rw [← hz, hq]
      exact ⟨hk, hc, rfl⟩
    · rw [hself] at hno
      cases hno
    · exact absurd hb (Nat.not_lt.mpr (hN ▸ hle))
  · refine h.congr (by rw [hS, update_of_ne hab]) hN.ge ?_ hL
    rw [htrace]
    exact if_neg (Ne.symm hab)

/-- A part of the queue is written. -/
lemma Flushes.drain (h : Flushes a D) (hs : D.sockets b = some s)
    (hS : D'.sockets = update D.sockets b (some s')) (hb : b < D.nextAddr)
    (hk : s'.ops = s.ops) (hc : s'.closing = s.closing) (hq : s.queued = bs ++ s'.queued)
    (hN : D'.nextAddr = D.nextAddr)
    (htrace : D'.trace = .wrote b bs :: D.trace) : Flushes a D' := by
  have hL : leftBy a D'.trace = leftBy a D.trace := by rw [htrace]; rfl
  by_cases hab : a = b
  · subst hab
    have hF : flushOf a D'.trace = (flushOf a D.trace).map fun f => (f.1, f.2 ++ bs) := by
      rw [htrace, flushOf_wrote]
    have hself : D'.sockets a = some s' := by rw [hS, update_self]
    refine ⟨fun z hz hclosing => ?_, fun z q w hz hsome => ?_, fun q w hno => ?_,
      hL ▸ h.destroyed, fun hle => ?_⟩
    · rw [hself, Option.some.injEq] at hz
      rw [hF, Option.isSome_map]
      exact h.moved s hs (hc ▸ hz ▸ hclosing)
    · rw [hself, Option.some.injEq] at hz
      rw [hF, Option.map_eq_some_iff] at hsome
      obtain ⟨⟨q', w'⟩, hsome, heq⟩ := hsome
      obtain ⟨rfl, rfl⟩ := Prod.mk.inj heq
      rw [← hz, hk, hc, List.append_assoc, ← hq]
      exact h.inOrder s q' w' hs hsome
    · rw [hself] at hno
      cases hno
    · exact absurd hb (Nat.not_lt.mpr (hN ▸ hle))
  · refine h.congr (by rw [hS, update_of_ne hab]) hN.ge ?_ hL
    rw [htrace]
    exact if_neg (Ne.symm hab)

end Changes

/-! ## Every change -/

section Effects

variable {e : Event} {D₀ : Daemon} {m m' : Moment} {a : Addr}

/-- The flush of `a` is kept by every change of a step that neither cuts it nor fails to write. -/
theorem flushes_effect (he : Effect e D₀ m m') (h : Wf m) (hcut : ¬CutsFlush e D₀ a)
    (hfail : ¬FailsWrite e D₀ a) (hf : Flushes a m.d) : Flushes a m'.d := by
  have hempty : ∀ {b : Addr} {s : Asocket}, MayFree e D₀ b s → b = a → s.pkts = [] := by
    rintro b s hmay rfl
    rcases hmay with hq | hno | hno
    · exact hq
    · exact absurd hno hfail
    · exact absurd hno hcut
  have hlt : ∀ {b : Addr} {s : Asocket}, m.d.sockets b = some s → b < m.d.nextAddr :=
    fun hs => h.peers.fresh _ _ hs
  have hne : ∀ {b : Addr} {s : Asocket}, m.d.sockets b = some s → b ≠ m.d.nextAddr :=
    fun hs => Nat.ne_of_lt (hlt hs)
  cases he
  case note o ho =>
    have hsilent : ∀ x ∈ [o], Silent a x := by
      intro x hx
      rw [List.mem_singleton] at hx
      subst hx
      cases x <;> trivial
    exact hf.append hsilent rfl rfl rfl
  case unpeer b s hs hb => exact hf.assign hs rfl rfl rfl rfl rfl rfl rfl
  case unname b s hs hl hb => exact hf.assign hs rfl rfl rfl rfl rfl rfl rfl
  case destroy b s hs hfree =>
    refine hf.destroy fun hb => ?_
    rw [Asocket.queued, hempty hfree hb]
    rfl
  case free b s hs hb hops hl hc hin hfree htr =>
    exact hf.free hs rfl (fun heq hclosing => hempty (hfree hclosing) heq) rfl rfl rfl
  case freeTracker b s hs hb hops hl hc hin hclosing =>
    refine hf.free hs rfl (fun _ hno => ?_) rfl rfl rfl
    cases hclosing.symm.trans hno
  case dropRemote r s t x hs hr hops ht hx =>
    -- a remote socket is never moved
    refine hf.free hs rfl (fun hra hc => ?_) rfl rfl rfl
    subst hra
    obtain ⟨⟨q, w⟩, hF⟩ := Option.isSome_iff_exists.mp (hf.moved s hs hc)
    have hfd := (hf.inOrder s q w hs hF).1
    rw [hops] at hfd
    cases hfd
  case retire b s i ev L hs hb hops hp hclosing hq hin hset hev hread =>
    exact hf.move hs rfl hops rfl rfl (hlt hs) rfl rfl
  case createFd n L hfirst hown hins => exact hf.create rfl rfl (Nat.le_succ _) rfl rfl
  case createJdwp hfirst => exact hf.create rfl rfl (Nat.le_succ _) rfl rfl
  case createTracker hfirst => exact hf.create rfl rfl (Nat.le_succ _) rfl rfl
  case accept b s hs hb hp hops hclosing hl hin =>
    exact hf.pair hs hclosing (hne hs) rfl rfl hclosing (Nat.le_succ _) rfl rfl
  case pair b s id t x hs hp hclosing hl hin hnew hx hserve hon opened hopened =>
    refine hf.pair hs hclosing (hne hs) rfl rfl hclosing (Nat.le_succ _) ?_ ?_
    all_goals cases opened <;> rfl
  case handOver b s t hs hb hops hclosing hl hin =>
    exact hf.assign hs rfl (by rw [hops]; rfl) rfl rfl rfl rfl rfl
  case answered b s hs hops =>
    exact hf.assign hs rfl (by rw [hops]; rfl) rfl rfl rfl rfl rfl
  case exits b s hs => exact hf.assign hs rfl rfl rfl rfl rfl rfl rfl
  case gather b s ps hs hops hclosing =>
    exact hf.requeue hs hclosing rfl hclosing le_rfl (fun _ => rfl) rfl
  case enqueueLink b s p out ev L hb hs hops hclosing hout hin hset hev hread hcause hblock =>
    exact hf.requeue hs hclosing rfl hclosing le_rfl (fun _ => rfl) rfl
  case drained b s ps out hb hs hops hout hlen hstuck hleft =>
    exact hf.drain hs rfl (hlt hs) rfl rfl hout.symm rfl rfl
  case flushed b s ev L hb hs hops hclosing hin hset hev hread hwrite hevents howed hcause hbef =>
    refine hf.requeue hs hclosing rfl hclosing le_rfl (fun hor => ?_) rfl
    rcases hor with hba | hnone
    · exact if_neg hba
    · show (if b = a then (flushOf a m.d.trace).map _ else flushOf a m.d.trace) = _
      rw [hnone, Option.map_none, ite_self]
  case wrteJdwp b r s q p t x hb hs hops hp hto hpass =>
    exact hf.assign hs rfl rfl rfl rfl rfl rfl rfl
  case wrteTracker b r s q p t x hb hs hops hp hto hneed =>
    exact hf.assign hs rfl rfl rfl rfl rfl rfl rfl
  case unplug u x rest L hreg hx hrem hsame hL own own' =>
    obtain ⟨os, htrace, hos⟩ := unplug_trace own own'
      (has (m.d.loop.mem (.transport u)).state fdeActive) m.d.trace
    have hsilent : ∀ o ∈ os, Silent a o := by
      intro o ho
      rcases hos o ho with ⟨d, i, b, rfl⟩ | rfl <;> trivial
    exact hf.append hsilent rfl rfl htrace
  case output u x y L R os n hidle hx hact hstep =>
    exact hf.append (fun o ho => silent_of_thread (hstep.ofThread ho)) rfl rfl rfl
  case input u x y L R os n hidle hx hstart hstep =>
    exact hf.append (fun o ho => silent_of_thread (hstep.ofThread ho)) rfl rfl rfl
  all_goals exact hf.congr rfl le_rfl rfl rfl

/-- Whatever is delivered, and in whatever order: a socket that is closed with packets queued is
destroyed when all of them have been written, as long as no write of them fails and no read event
cuts the flush. -/
theorem closing_flushed {D : Daemon}
    (h : ReachableBy (fun e D => ¬CutsFlush e D a ∧ ¬FailsWrite e D a) D) : Flushes a D := by
  have hkept : Kept (fun e D => ¬CutsFlush e D a ∧ ¬FailsWrite e D a) fun m => Flushes a m.d :=
    fun e D m m' hC _ _ _ hwf hf he => flushes_effect he hwf hC.1 hC.2 hf
  refine hkept.reachableBy (fun config fds inUse D hmain => ?_) h
  obtain ⟨L, O, I, rfl⟩ := adbMain_eq hmain
  refine ⟨fun s hs => ?_, fun s q w hs => ?_, fun q w _ hno => ?_, fun bs hbs => ?_, fun _ => rfl⟩
  · cases hs
  · cases hs
  · cases hno
  · cases hbs

end Effects

/-! ## Two runs -/

section Runs

variable {e : Event} {D : Daemon} {a : Addr}

/-- `FailsWrite`, as a test. -/
def failsWrite (a : Addr) (e : Event) (D : Daemon) : Bool :=
  (D.delivered e).any fun d => decide (d.1 = .socket a) && has d.2.1 fdeWrite &&
    (D.sockets a).any fun s => decide ((drain s.pkts e.io.writes).ended = .failed)

/-- `CutsFlush`, as a test. -/
def cutsFlush (a : Addr) (e : Event) (D : Daemon) : Bool :=
  (D.delivered e).any fun d => decide (d.1 = .socket a) && has d.2.1 fdeRead &&
    !has d.2.1 fdeWrite && (readLoop maxPayload d.2.2).2.1 &&
    (D.sockets a).any fun s => s.closing && !s.pkts.isEmpty

lemma not_failsWrite (h : failsWrite a e D = false) : ¬FailsWrite e D a := by
  rintro ⟨ev, rs, s, hd, hev, hs, hfail⟩
  simp [failsWrite, hd, hev, hs, hfail] at h

lemma not_cutsFlush (h : cutsFlush a e D = false) : ¬CutsFlush e D a := by
  rintro ⟨ev, rs, s, hd, hread, hwrite, hs, hc, hq, heof⟩
  simp [cutsFlush, hd, hread, hwrite, hs, hc, hq, heof] at h

/-- A shell is sent `hi`, which it does not take at once, and closed by its host. -/
def hangUp : List Event :=
  openShell ++ carry 0 11 (packetOf aWrte 7 1 [104, 105]) { writes := [.again] } ++
    [⟨.output 0, { packet := some (packetOf aClse 7 1 []) }⟩]

/-- The theorem where the shell takes `hi` after it has been closed. -/
theorem closing_flushed_shell : ∃ D,
    ReachableBy (fun e D => ¬CutsFlush e D 0 ∧ ¬FailsWrite e D 0) D ∧ D.sockets 0 = none ∧
      flushOf 0 D.trace = some ([104, 105], [104, 105]) ∧ Flushes 0 D := by
  obtain ⟨D, hD, hshows⟩ := @exists_reachableBy
    (fun e D => ¬CutsFlush e D 0 ∧ ¬FailsWrite e D 0)
    (Bool × Option (List UInt8 × List UInt8)) unlocked [3, 4, 6, 7, 8, 9] (fun _ => false)
    (hangUp ++ handleNext 11 {} ++ [⟨.epollWait [(13, ⟨false, true, false⟩)], {}⟩,
      ⟨.dispatch, { writes := [.wrote 1, .intr, .wrote 1] }⟩])
    (fun e D => !cutsFlush 0 e D && !failsWrite 0 e D)
    (fun D => ((D.sockets 0).isNone, flushOf 0 D.trace)) (true, some ([104, 105], [104, 105]))
    (fun e D _ hc => by
      rw [Bool.and_eq_true, Bool.not_eq_true', Bool.not_eq_true'] at hc
      exact ⟨not_cutsFlush hc.1, not_failsWrite hc.2⟩)
    (by decide +kernel)
  simp only [Prod.mk.injEq, Option.isNone_iff_eq_none] at hshows
  exact ⟨D, hD, hshows.1, hshows.2, closing_flushed hD⟩

/-- The shell's output comes in with the `A_CLSE`, in one batch: the read event is delivered after
the socket has been closed, and `hi` is freed. -/
theorem cut_short : ∃ D, ReachableBy (fun e D => ¬FailsWrite e D 0) D ∧
    [104, 105] ∈ leftBy 0 D.trace ∧ ¬Flushes 0 D := by
  obtain ⟨D, hD, hleft⟩ := @exists_reachableBy (fun e D => ¬FailsWrite e D 0)
    (List (List UInt8)) unlocked [3, 4, 6, 7, 8, 9] (fun _ => false)
    (hangUp ++ [⟨.epollWait [(11, ⟨true, false, false⟩), (13, ⟨true, false, false⟩)], {}⟩,
      ⟨.dispatch, {}⟩, ⟨.dispatch, { reads := [.data []] }⟩])
    (fun e D => !failsWrite 0 e D) (fun D => leftBy 0 D.trace) [[104, 105]]
    (fun e D _ hc => by
      rw [Bool.not_eq_true'] at hc
      exact not_failsWrite hc)
    (by decide +kernel)
  have hmem : [104, 105] ∈ leftBy 0 D.trace := by
    rw [hleft]
    exact List.mem_singleton_self _
  refine ⟨D, hD, hmem, fun hno => ?_⟩
  cases hno.destroyed _ hmem

end Runs

end Adbd.ClosingFlush
