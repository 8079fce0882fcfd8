import Adbd.Properties.DrainPeers
import Adbd.Properties.ServiceBytes

/-!
# Acknowledgements of what a host sends

A host that sends an `A_WRTE` waits for an `A_OKAY` before it sends the next.  The daemon sends it
from two places: `handle_packet` when `enqueue` could write the payload at once, and
`remote_socket_ready` when the queue that was left has been written.  Between them they send one
`A_OKAY` for each time the socket was given something while it had nothing left to write, and none
while it has.  A host that waits therefore gets exactly one for each payload, and gets it when the
payload has been written.

The count goes wrong if a socket with an empty queue is told that it can write.  So the argument
starts with the subscription to `FDE_WRITE`.
-/

namespace Adbd.Acknowledged

open Function FlagWord Relation Transition Daemon History PeerLinks DrainPeers

/-! ## Nobody asks an empty socket to write -/

section Calm

variable {e : Event} {D₀ : Daemon} {m m' : Moment} {a : Addr} {s z z' : Asocket}

/-- Sockets with nothing queued are not asked to write, those that are closing aside. -/
def Calmed (m : Moment) : Prop :=
  ∀ a s, m.d.sockets a = some s → s.ops.isFd = true → s.closing = false → s.pkts = [] →
    Calm m.d.loop a

lemma Calmed.same (h : Calmed m) (hsock : m'.d.sockets = m.d.sockets)
    (hloop : ∀ b, Calm m.d.loop b → Calm m'.d.loop b) : Calmed m' := by
  intro b t ht hfd hc hq
  rw [hsock] at ht
  exact hloop b (h b t ht hfd hc hq)

/-- One socket is new, or rewritten. -/
lemma Calmed.assign (h : Calmed m) (hsock : m'.d.sockets = update m.d.sockets a (some z'))
    (hloop : ∀ b, b ≠ a → Calm m.d.loop b → Calm m'.d.loop b)
    (hnew : z'.ops.isFd = true → z'.closing = false → z'.pkts = [] → Calm m'.d.loop a) :
    Calmed m' := by
  intro b t ht hfd hc hq
  rw [hsock] at ht
  by_cases hba : b = a
  · subst hba
    rw [update_self, Option.some.injEq] at ht
    subst ht
    exact hnew hfd hc hq
  · rw [update_of_ne hba] at ht
    exact hloop b hba (h b t ht hfd hc hq)

/-- A socket keeps its kind and its queue. -/
lemma Calmed.rewrite (h : Calmed m) (hz : m.d.sockets a = some z)
    (hsock : m'.d.sockets = update m.d.sockets a (some z')) (hloop : m'.d.loop = m.d.loop)
    (hfd : z'.ops.isFd = z.ops.isFd) (hc : z'.closing = z.closing) (hq : z'.pkts = z.pkts) :
    Calmed m' := by
  refine h.assign hsock (fun b _ hb => hloop.symm ▸ hb) fun hfd' hc' hq' => ?_
  rw [hloop]
  exact h a z hz (hfd ▸ hfd') (hc ▸ hc') (hq ▸ hq')

lemma Calmed.free (h : Calmed m) (hsock : m'.d.sockets = update m.d.sockets a none)
    (hloop : m'.d.loop = m.d.loop) : Calmed m' := by
  intro b t ht
  rw [hsock] at ht
  rw [hloop]
  by_cases hba : b = a
  · rw [hba, update_self] at ht
    cases ht
  · rw [update_of_ne hba] at ht
    exact h b t ht

/-- A socket is paired with a new one that has no descriptor. -/
lemma Calmed.pair (h : Calmed m) (hs : m.d.sockets a = some s) (hne : a ≠ m.d.nextAddr)
    (hsock : m'.d.sockets = update (update m.d.sockets m.d.nextAddr (some z)) a
      (some { s with peer := some m.d.nextAddr }))
    (hz : z.ops.isFd = false)
    (hloop : m'.d.loop = m.d.loop.setMem (.socket m.d.nextAddr) {}) : Calmed m' := by
  intro b t ht hfd hc hq
  have hcalm : ∀ u, b ≠ m.d.nextAddr → m.d.sockets b = some u → u.ops.isFd = true →
      u.closing = false → u.pkts = [] → Calm m'.d.loop b := by
    intro u hb hu hfd hc hq
    rw [hloop]
    refine calm_of_mem (Loop.setMem_mem_of_ne ?_ ..) (h b u hu hfd hc hq)
    exact fun heq => hb (FdeId.socket.inj heq)
  rw [hsock] at ht
  by_cases hba : b = a
  · subst hba
    rw [update_self, Option.some.injEq] at ht
    subst ht
    exact hcalm s hne hs hfd hc hq
  · rw [update_of_ne hba] at ht
    by_cases hbN : b = m.d.nextAddr
    · rw [hbN, update_self, Option.some.injEq] at ht
      rw [← ht, hz] at hfd
      cases hfd
    · rw [update_of_ne hbN] at ht
      exact hcalm t hbN ht hfd hc hq

/-- In no run is an empty socket asked to write. -/
theorem calmed_effect (he : Effect e D₀ m m') (hwf : Wf m) (h : Calmed m) : Calmed m' := by
  have hfresh : ∀ {b : Addr} {t : Asocket}, m.d.sockets b = some t → b ≠ m.d.nextAddr :=
    fun ht => Nat.ne_of_lt (hwf.peers.fresh _ _ ht)
  have hnew : ∀ b, b ≠ m.d.nextAddr → Calm m.d.loop b →
      Calm (m.d.loop.setMem (.socket m.d.nextAddr) {}) b := by
    intro b hb hc
    exact calm_of_mem (Loop.setMem_mem_of_ne (fun heq => hb (FdeId.socket.inj heq)) ..) hc
  have hother : ∀ {b c : Addr}, b ≠ c → FdeId.socket c ≠ .socket b :=
    fun hbc heq => hbc (FdeId.socket.inj heq).symm
  cases he
  case unpeer b z hz hb => exact h.rewrite hz rfl rfl rfl rfl rfl
  case unname b z hz hl hb => exact h.rewrite hz rfl rfl rfl rfl rfl
  case uninstall b L hz hb hrem => exact h.same rfl fun c => calm_of_remove hrem
  case free => exact h.free rfl rfl
  case freeTracker => exact h.free rfl rfl
  case dropRemote => exact h.free rfl rfl
  case retire b z i ev L hz hb hops hp hclosing hq hin hset hev hread =>
    refine h.assign rfl (fun c hc => calm_of_set hset fun heq => absurd heq (hother hc)) ?_
    intro _ hc
    cases hc
  case createFd n L hfirst hown hins =>
    refine h.assign rfl (fun b hb hc => calm_of_install hins (hnew b hb hc)) fun _ _ _ => ?_
    exact calm_of_install hins (calm_new {} (Loop.setMem_mem_self ..) (by decide) rfl)
  case createJdwp hfirst => exact h.assign rfl hnew fun hfd => by cases hfd
  case createTracker hfirst => exact h.assign rfl hnew fun hfd => by cases hfd
  case accept b z hz hb hp hops hclosing hl hin => exact h.pair hz (hfresh hz) rfl rfl rfl
  case pair b z id t x hz hp hclosing hl hin hnew' hx hserve honline opened hopened =>
    exact h.pair hz (hfresh hz) rfl rfl rfl
  case handOver b z t hz hb hops hclosing hl hin =>
    exact h.rewrite hz rfl rfl (by rw [hops]; rfl) rfl rfl
  case await b z ev L hz hb hops hp hclosing hl hin hset hev hread hevents hwrite hlate =>
    exact h.same rfl fun c => calm_of_set hset fun _ => hwrite
  case answered b z hz hops => exact h.rewrite hz rfl rfl (by rw [hops]; rfl) rfl rfl
  case exits b z hz => exact h.rewrite hz rfl rfl rfl rfl rfl
  case gather b z ps hz hops hclosing =>
    refine h.assign rfl (fun _ _ hc => hc) fun hfd => ?_
    rw [show z.ops = .smart from hops] at hfd
    cases hfd
  case enqueueLink b z p out ev L hb hz hops hclosing hout hin hset hev hread hcause hblock =>
    refine h.assign rfl (fun c hc => calm_of_set hset fun heq => absurd heq (hother hc)) ?_
    intro _ _ hq
    exact absurd hq (by simp)
  case drained b z ps out hb hz hops hbytes hlen hstuck hleft =>
    refine h.assign rfl (fun _ _ hc => hc) fun _ hc hq => ?_
    rw [show z.closing = true from hleft hq] at hc
    cases hc
  case flushed b z ev L hb hz hops hclosing hin hset hev hread hwrite hevents howed hcause hbef =>
    refine h.assign rfl (fun c hc => calm_of_set hset fun heq => absurd heq (hother hc)) ?_
    intro _ _ _
    refine ⟨?_, ?_⟩
    · rw [has_congr hset.low (by decide)]
      exact hwrite
    · by_contra hyes
      rw [Bool.not_eq_false] at hyes
      rw [hset.events _ hyes] at hevents
      cases hevents
  case subscribe b z ev L hz hops hin hset hev hread hsmart hwrite =>
    exact h.same rfl fun c => calm_of_set hset fun _ => hwrite
  case grant b z ev L hz hops hin hset hev hread hwrite hp hcredit =>
    exact h.same rfl fun c => calm_of_set hset fun _ => hwrite
  case wrteRead b r z q p t x ev L hb hz hops hp hto hin hset hev hread hwrite hevents hsub hby _ =>
    exact h.same rfl fun c => calm_of_set hset fun _ => hwrite
  case wrteJdwp b r z q p t x hb hz hops hp hto hpass => exact h.rewrite hz rfl rfl rfl rfl rfl
  case wrteTracker b r z q p t x hb hz hops hp hto hneed => exact h.rewrite hz rfl rfl rfl rfl rfl
  case report n rep mask k hn hrep => exact h.same rfl fun c => calm_of_report hwf.loop hn hrep
  case dispatch k L hd => exact h.same rfl fun c => calm_of_dispatch hd
  case force n k ev hk hev =>
    refine h.same rfl fun c => calm_of_setMem _ rfl fun hno => ?_
    have hread : has fdeRead fdeWrite = false := by decide
    rcases hev with rfl | rfl | rfl
    · exact hno
    · rw [has_or, hno, hread]
      rfl
    · exact has_zero_left _
  case rearm L ev hset => exact h.same rfl fun c => calm_of_set hset fun heq => by cases heq
  case confirm t n p L M hp hcmd hn hfwd hhist hL hM =>
    refine h.same rfl fun c hc => ?_
    exact calm_of_set (Loop.fdeventSet_spec hM) (fun heq => by cases heq) (calm_of_install hL hc)
  case authDropped t L hrem =>
    exact h.same rfl fun c => calm_of_remove (Loop.fdeventRemove_spec hrem)
  case start t x rest n k L M hreg hx hn hk hnk hL hM =>
    refine h.same rfl fun c hc => ?_
    refine calm_of_set (Loop.fdeventSet_spec hM) (fun heq => by cases heq) ?_
    exact calm_of_install hL (calm_of_mem rfl hc)
  case unplug t x rest L hreg hx hrem hsame hL own own' =>
    refine h.same rfl fun c hc => ?_
    exact calm_of_mem (L := L) rfl (calm_of_remove (Loop.fdeventRemove_spec hL) hc)
  case output t x y L R os n hidle hx hact hstep =>
    refine h.same rfl fun c hc => ?_
    exact hstep.closes (P := fun L => Calm L c) (fun _ _ hc => calm_of_mem rfl hc) hc
  case input t x y L R os n hidle hx hstart hstep =>
    refine h.same rfl fun c hc => ?_
    exact hstep.closes (P := fun L => Calm L c) (fun _ _ hc => calm_of_mem rfl hc) hc
  case closed n hn => exact h.same rfl fun c hc => calm_of_mem rfl hc
  all_goals exact h.same rfl fun c hc => calm_of_mem rfl hc

/-- So a socket that is told it can write has something to write. -/
lemma Calmed.queued (h : Calmed { d := D₀ }) (hwf : Wf { d := D₀ }) (hs : D₀.sockets a = some s)
    (hfd : s.ops.isFd = true) (hc : s.closing = false) (hw : Writes e D₀ a) : s.pkts ≠ [] := by
  intro hq
  obtain ⟨ev, rs, hd, hev⟩ := hw
  have hevents := (delivered_socket hwf hd hev).2
  rw [(h a s hs hfd hc hq).2] at hevents
  cases hevents

end Calm

/-! ## The history of a stream -/

/-- The payloads enqueued on the socket, one after the other. -/
def given (a : Addr) : List Obs → List UInt8
  | [] => []
  | .enqueued b bs _ :: os => if b = a then given a os ++ bs else given a os
  | _ :: os => given a os

/-- What its descriptor has taken of them. -/
def taken (a : Addr) : List Obs → List UInt8
  | [] => []
  | .enqueued b _ out :: os => if b = a then taken a os ++ out else taken a os
  | .wrote b bs :: os => if b = a then taken a os ++ bs else taken a os
  | _ :: os => taken a os

/-- How often a payload came when everything before it had been taken. -/
def rounds (a : Addr) : List Obs → ℕ
  | [] => 0
  | .enqueued b _ _ :: os =>
    if b = a ∧ given a os = taken a os then rounds a os + 1 else rounds a os
  | _ :: os => rounds a os

/-- An `A_OKAY` is sent on behalf of the remote socket. -/
def isOkay (r : Addr) : Obs → Bool
  | .sent _ via p => via = some r && p.msg.command = aOkay
  | _ => false

/-- A payload is enqueued on the socket. -/
def comes (a : Addr) : Obs → Bool
  | .enqueued b _ _ => b = a
  | _ => false

def okays (r : Addr) (os : List Obs) : ℕ := os.countP (isOkay r)

/-- Where the payloads end, counted from the first byte, the latest first. -/
def ends (a : Addr) : List Obs → List ℕ
  | [] => []
  | .enqueued b bs _ :: os =>
    if b = a then ((given a os).length + bs.length) :: ends a os else ends a os
  | _ :: os => ends a os

/-- How many payloads have been taken to their end. -/
def completed (a : Addr) (os : List Obs) : ℕ := (ends a os).countP (· ≤ (taken a os).length)

/-- An `A_OKAY` is sent when everything has been taken. -/
def Prompt (a r : Addr) (o : Obs) (os : List Obs) : Prop :=
  isOkay r o = true → given a os = taken a os

/-- When a payload comes, the `A_OKAY`s tell whether something is left to write. -/
def Counted (a r : Addr) (o : Obs) (os : List Obs) : Prop :=
  comes a o = true → okays r os + (if given a os = taken a os then 0 else 1) = 1 + rounds a os

section History

variable {a b r : Addr} {t : TAddr} {o : Obs} {os tr tr' : List Obs}

/-- Observations that have nothing to do with what the host sends. -/
def Silent (a r : Addr) : Obs → Prop
  | .enqueued b _ _ => b ≠ a
  | .wrote b _ => b ≠ a
  | .sent _ via p => via = some r → p.msg.command ≠ aOkay
  | _ => True

/-- The history of a stream after observations that have nothing to do with it. -/
structure Same (a r : Addr) (tr tr' : List Obs) : Prop where
  given : given a tr' = given a tr
  taken : taken a tr' = taken a tr
  rounds : rounds a tr' = rounds a tr
  okays : okays r tr' = okays r tr
  prompt : Always (Prompt a r) tr → Always (Prompt a r) tr'
  counted : Always (Counted a r) tr → Always (Counted a r) tr'

lemma same_refl : Same a r tr tr := ⟨rfl, rfl, rfl, rfl, id, id⟩

lemma isOkay_of_silent (ho : Silent a r o) : isOkay r o = false := by
  cases o with
  | sent t via p =>
    have hvia : ¬(via = some r ∧ p.msg.command = aOkay) := fun hno => ho hno.1 hno.2
    simpa [isOkay] using hvia
  | _ => rfl

lemma comes_of_silent (ho : Silent a r o) : comes a o = false := by
  cases o with
  | enqueued b bs out => exact decide_eq_false ho
  | _ => rfl

lemma okays_cons : okays r (o :: tr) = okays r tr + (if isOkay r o then 1 else 0) :=
  List.countP_cons ..

lemma same_cons (ho : Silent a r o) : Same a r tr (o :: tr) := by
  have hokay := isOkay_of_silent ho
  have hcomes := comes_of_silent ho
  refine ⟨?_, ?_, ?_, ?_, fun h => always_cons.mpr ⟨fun hno => ?_, h⟩,
    fun h => always_cons.mpr ⟨fun hno => ?_, h⟩⟩
  · cases o with
    | enqueued b bs out => exact if_neg ho
    | _ => rfl
  · cases o with
    | enqueued b bs out => exact if_neg ho
    | wrote b bs => exact if_neg ho
    | _ => rfl
  · cases o with
    | enqueued b bs out => exact if_neg fun hno => ho hno.1
    | _ => rfl
  · rw [okays_cons, hokay]
    rfl
  · rw [hokay] at hno
    cases hno
  · rw [hcomes] at hno
    cases hno

lemma Same.trans {tr'' : List Obs} (h : Same a r tr tr') (h' : Same a r tr' tr'') :
    Same a r tr tr'' :=
  ⟨h'.given.trans h.given, h'.taken.trans h.taken, h'.rounds.trans h.rounds,
    h'.okays.trans h.okays, fun hp => h'.prompt (h.prompt hp), fun hc => h'.counted (h.counted hc)⟩

lemma same_append (h : ∀ o ∈ os, Silent a r o) : Same a r tr (os ++ tr) := by
  induction os with
  | nil => exact same_refl
  | cons o os ih =>
    have hos := ih fun x hx => h x (List.mem_cons_of_mem _ hx)
    exact hos.trans (same_cons (h o List.mem_cons_self))

lemma silent_of_thread (h : o.ofThread t) : Silent a r o := by
  cases o <;> trivial

end History

/-! ## A host that waits -/

section Waiting

variable {a r : Addr} {os : List Obs}

/-- A payload comes when there has been an `A_OKAY` for the stream and one for each payload. -/
def Waits (a r : Addr) (o : Obs) (os : List Obs) : Prop :=
  comes a o = true → okays r os = 1 + (ends a os).length

instance (a r : Addr) (o : Obs) (os : List Obs) : Decidable (Waits a r o os) :=
  inferInstanceAs (Decidable (_ → _))

/-- To a host that waits, each payload comes when all before have been taken. -/
lemma rounds_of_waits (hc : Always (Counted a r) os) (hw : Always (Waits a r) os) :
    rounds a os = (ends a os).length ∧
      (ends a os = [] ∨ ∃ rest, ends a os = (given a os).length :: rest ∧
        ∀ n ∈ rest, n ≤ (taken a os).length) := by
  induction os with
  | nil => exact ⟨rfl, .inl rfl⟩
  | cons o os ih =>
    obtain ⟨hco, hc⟩ := always_cons.mp hc
    obtain ⟨hwo, hw⟩ := always_cons.mp hw
    obtain ⟨hrounds, hends⟩ := ih hc hw
    cases o with
    | enqueued b bs out =>
      by_cases hb : b = a
      · have hcount := hco (decide_eq_true hb)
        have hwait := hwo (decide_eq_true hb)
        have hall : given a os = taken a os := by
          by_contra hno
          rw [if_neg hno] at hcount
          omega
        refine ⟨?_, .inr ⟨ends a os, ?_, fun n hn => ?_⟩⟩
        · rw [rounds, if_pos ⟨hb, hall⟩, ends, if_pos hb, List.length_cons, hrounds]
        · rw [ends, if_pos hb, given, if_pos hb, List.length_append]
        · rw [taken, if_pos hb, List.length_append]
          rcases hends with hnil | ⟨rest, hcons, hrest⟩
          · rw [hnil] at hn
            cases hn
          · rw [hcons, List.mem_cons] at hn
            rcases hn with rfl | hn
            · rw [hall]
              exact Nat.le_add_right _ _
            · exact (hrest n hn).trans (Nat.le_add_right _ _)
      · rw [rounds, if_neg fun hno => hb hno.1, ends, if_neg hb, given, if_neg hb, taken,
          if_neg hb]
        exact ⟨hrounds, hends⟩
    | wrote b bs =>
      refine ⟨hrounds, hends.imp_right fun ⟨rest, hcons, hrest⟩ => ⟨rest, hcons, fun n hn => ?_⟩⟩
      rw [taken]
      split
      · rw [List.length_append]
        exact (hrest n hn).trans (Nat.le_add_right _ _)
      · exact hrest n hn
    | _ => exact ⟨hrounds, hends⟩

lemma given_of_ends (h : ends a os = []) : given a os = [] := by
  induction os with
  | nil => rfl
  | cons o os ih =>
    cases o with
    | enqueued b bs out =>
      rw [ends] at h
      split at h
      case isTrue => cases h
      case isFalse hb =>
        rw [given, if_neg hb]
        exact ih h
    | _ => exact ih h

/-- So all of them have been taken to their end, or all but the last. -/
lemma completed_of_waits (hc : Always (Counted a r) os) (hw : Always (Waits a r) os)
    {rest : List UInt8} (hbytes : given a os = taken a os ++ rest) :
    completed a os + (if rest = [] then 0 else 1) = rounds a os := by
  obtain ⟨hrounds, hends⟩ := rounds_of_waits hc hw
  rw [hrounds, completed]
  rcases hends with hnil | ⟨earlier, hcons, hearlier⟩
  · have hrest : rest = [] := by
      rw [given_of_ends hnil] at hbytes
      exact (List.append_eq_nil_iff.mp hbytes.symm).2
    rw [hnil, if_pos hrest]
    rfl
  · have hcount : earlier.countP (· ≤ (taken a os).length) = earlier.length :=
      List.countP_eq_length.mpr fun n hn => decide_eq_true (hearlier n hn)
    rw [hcons, List.countP_cons, hcount, List.length_cons, hbytes, List.length_append]
    by_cases hrest : rest = []
    · simp [hrest]
    · have hpos : 0 < rest.length := List.length_pos_iff.mpr hrest
      rw [if_neg hrest, if_neg]
      rw [decide_eq_true_eq]
      omega

end Waiting

/-! ## What a change does to the account -/

section Account

variable {e : Event} {D₀ D : Daemon} {m m' : Moment} {a r : Addr} {s : Asocket}

/-- The account of the open stream of `r` and the socket `s` at `a`. -/
structure Books (a r : Addr) (m : Moment) (s : Asocket) : Prop where
  bytes : given a m.d.trace = taken a m.d.trace ++ s.queued
  /-- The queue is empty when there is nothing left to write. -/
  first : ∀ p ∈ s.pkts.head?, p.remaining ≠ []
  idle : m.owed = some a → s.pkts = []
  count : okays r m.d.trace + (if m.owed = some a then 1 else 0) +
    (if s.pkts = [] then 0 else 1) = 1 + rounds a m.d.trace
  counted : Always (Counted a r) m.d.trace

/-- The account of the stream of `r` and `a`, whether it is open or not. -/
structure Account (a r : Addr) (m : Moment) : Prop where
  ends : Ends a r m
  books : Open a r m → ∀ s, m.d.sockets a = some s → Books a r m s
  prompt : Always (Prompt a r) m.d.trace

lemma queued_eq_nil (h : ∀ p ∈ s.pkts.head?, p.remaining ≠ []) :
    s.queued = [] ↔ s.pkts = [] := by
  rw [Asocket.queued]
  cases hq : s.pkts with
  | nil => simp
  | cons p ps =>
    have hp := h p (by rw [hq, List.head?_cons, Option.mem_some_iff])
    simp [hp]

/-- Everything has been taken exactly if the queue is empty. -/
lemma Books.all_taken (h : Books a r m s) :
    given a m.d.trace = taken a m.d.trace ↔ s.pkts = [] := by
  rw [h.bytes, List.append_right_eq_self, queued_eq_nil h.first]

/-- When no `A_OKAY` is owed, one is outstanding exactly if something is queued. -/
lemma Books.outstanding (h : Books a r m s) (howed : m.owed ≠ some a) :
    okays r m.d.trace + (if s.queued = [] then 0 else 1) = 1 + rounds a m.d.trace := by
  have hcount := h.count
  rw [if_neg howed, Nat.add_zero] at hcount
  simpa only [queued_eq_nil h.first] using hcount

/-- What a change has to do to the account while the stream is open. -/
lemma Account.advance (h : Account a r m) (he : Effect e D₀ m m') (hwf : Wf m)
    (hbooks : ∀ s s', Open a r m → Open a r m' → m.d.sockets a = some s →
      m'.d.sockets a = some s' → Books a r m s → Books a r m' s')
    (hprompt : Always (Prompt a r) m'.d.trace) : Account a r m' := by
  refine ⟨h.ends.after he hwf (StreamIds.nextAddr_le he), fun hopen s' hs' => ?_, hprompt⟩
  obtain ⟨s, hs, -⟩ := he.ages hwf a s' h.ends.near hs'
  have hbefore := hopen.before he hwf h.ends.far
  exact hbooks s s' hbefore hopen hs hs' (h.books hbefore s hs)

/-- The queue and the history are left alone. -/
lemma Account.keep (h : Account a r m) (he : Effect e D₀ m m') (hwf : Wf m)
    (hsame : Same a r m.d.trace m'.d.trace)
    (howed : Open a r m → (m'.owed = some a ↔ m.owed = some a))
    (hqueue : ∀ s s', Open a r m → m.d.sockets a = some s → m'.d.sockets a = some s' →
      s'.pkts = s.pkts) : Account a r m' := by
  refine h.advance he hwf (fun s s' hopen _ hs hs' hb => ?_) (hsame.prompt h.prompt)
  have hq := hqueue s s' hopen hs hs'
  refine ⟨?_, ?_, fun ho => ?_, ?_, hsame.counted hb.counted⟩
  · rw [hsame.given, hsame.taken, Asocket.queued, hq]
    exact hb.bytes
  · rw [hq]
    exact hb.first
  · rw [hq]
    exact hb.idle ((howed hopen).mp ho)
  · rw [hsame.okays, hsame.rounds, hq]
    simp only [howed hopen]
    exact hb.count

/-- The payload of an `A_WRTE` is enqueued on the socket. -/
lemma Books.enqueue {s' : Asocket} {bs out rest : List UInt8} (h : Books a r m s)
    (htrace : m'.d.trace = .enqueued a bs out :: m.d.trace) (hbs : bs = out ++ rest)
    (hrest : s'.queued = s.queued ++ rest) (hout : s.pkts ≠ [] → out = [])
    (hfirst : ∀ p ∈ s'.pkts.head?, p.remaining ≠ []) (howed : m.owed ≠ some a)
    (howes : m'.owed = some a ↔ s.pkts = [] ∧ s'.pkts = [])
    (hgrows : s.pkts ≠ [] → s'.pkts ≠ []) : Books a r m' s' := by
  have hgiven : given a m'.d.trace = given a m.d.trace ++ bs := by
    rw [htrace, given, if_pos rfl]
  have htaken : taken a m'.d.trace = taken a m.d.trace ++ out := by
    rw [htrace, taken, if_pos rfl]
  have hokays : okays r m'.d.trace = okays r m.d.trace := by
    rw [htrace]
    rfl
  have hcount := h.count
  rw [if_neg howed] at hcount
  refine ⟨?_, hfirst, fun ho => (howes.mp ho).2, ?_, ?_⟩
  · rw [hgiven, htaken, h.bytes, hrest, hbs]
    by_cases hq : s.pkts = []
    · simp [Asocket.queued, hq]
    · simp [hout hq]
  · rw [hokays, htrace, rounds]
    simp only [h.all_taken, howes, true_and]
    by_cases hq : s.pkts = []
    · rw [if_pos hq] at hcount ⊢
      by_cases hq' : s'.pkts = []
      · rw [if_pos ⟨hq, hq'⟩, if_pos hq']
        omega
      · rw [if_neg fun hno => hq' hno.2, if_neg hq']
        omega
    · rw [if_neg hq] at hcount ⊢
      rw [if_neg fun hno => hq hno.1, if_neg (hgrows hq)]
      exact hcount
  · rw [htrace, always_cons]
    refine ⟨fun _ => ?_, h.counted⟩
    simp only [h.all_taken]
    exact hcount

/-- The descriptor takes something of the queue. -/
lemma Books.take {s' : Asocket} {out : List UInt8} (h : Books a r m s)
    (htrace : m'.d.trace = .wrote a out :: m.d.trace) (hout : s.queued = out ++ s'.queued)
    (hq : s.pkts ≠ []) (hfirst : ∀ p ∈ s'.pkts.head?, p.remaining ≠ [])
    (howes : m'.owed = some a ↔ s'.pkts = []) : Books a r m' s' := by
  have htaken : taken a m'.d.trace = taken a m.d.trace ++ out := by
    rw [htrace, taken, if_pos rfl]
  have hgiven : given a m'.d.trace = given a m.d.trace := by
    rw [htrace]
    rfl
  have hrounds : rounds a m'.d.trace = rounds a m.d.trace := by
    rw [htrace]
    rfl
  have hokays : okays r m'.d.trace = okays r m.d.trace := by
    rw [htrace]
    rfl
  have hcount := h.count
  rw [if_neg fun ho => hq (h.idle ho), if_neg hq] at hcount
  refine ⟨?_, hfirst, howes.mp, ?_, ?_⟩
  · rw [hgiven, htaken, h.bytes, hout, List.append_assoc]
  · rw [hokays, hrounds]
    simp only [howes]
    by_cases hq' : s'.pkts = []
    · rw [if_pos hq', if_pos hq']
      omega
    · rw [if_neg hq', if_neg hq']
      omega
  · rw [htrace, always_cons]
    exact ⟨Bool.noConfusion, h.counted⟩

/-- When a packet has just come in, nobody is owed an `A_OKAY`. -/
lemma unowed_of_path {t : TAddr} {p : Apacket}
    (hpath : ReflTransGen (Effect e D) { d := D } m)
    (htrace : m.d.trace = .received t p :: D.trace) : m.owed = none := by
  have hall : ∀ m, ReflTransGen (Effect e D) { d := D } m → m.owed = none ∨
      ∃ new, m.d.trace = new ++ D.trace ∧ ∃ o ∈ new, ∀ t p, o ≠ .received t p := by
    intro m hpath
    induction hpath with
    | refl => exact .inl rfl
    | @tail m m' hpath he ih =>
      obtain ⟨new, hnew⟩ := he.trace_suffix
      obtain ⟨old, hold⟩ := trace_of_path hpath
      have hsame : m'.owed = m.owed → m'.owed = none ∨
          ∃ new, m'.d.trace = new ++ D.trace ∧ ∃ o ∈ new, ∀ t p, o ≠ .received t p := by
        intro howed
        rw [howed]
        refine ih.imp_right ?_
        rintro ⟨os, hos, o, ho, hne⟩
        refine ⟨new ++ os, ?_, o, List.mem_append_right _ ho, hne⟩
        rw [← hnew, hos, List.append_assoc]
      have hadd : ∀ o os, m'.d.trace = o :: os ++ m.d.trace → (∀ t p, o ≠ .received t p) →
          m'.owed = none ∨
            ∃ new, m'.d.trace = new ++ D.trace ∧ ∃ o ∈ new, ∀ t p, o ≠ .received t p := by
        intro o os htr hne
        refine .inr ⟨o :: os ++ old, ?_, o, List.mem_cons_self, hne⟩
        rw [htr, ← hold, List.append_assoc]
      cases he
      case okay => exact .inl rfl
      case waive => exact .inl rfl
      case pair b z id t x hz hp hc hl hin hnew' hx hserve hon opened hopened =>
        cases opened with
        | true => exact hadd (.opened m.d.nextAddr b) [_] rfl fun _ _ => Obs.noConfusion
        | false => exact hsame rfl
      case enqueueDone b z bs hb hz hops hc hq howed hcause =>
        exact hadd (.enqueued b bs bs) [] rfl fun _ _ => Obs.noConfusion
      case flushed b z ev L hb hz hops hc hin hset hev hread hwrite hevents howed hcause hbef =>
        exact hadd (.wrote b z.queued) [] rfl fun _ _ => Obs.noConfusion
      all_goals exact hsame rfl
  refine (hall m hpath).resolve_right ?_
  rintro ⟨new, hnew, o, ho, hne⟩
  rw [htrace, ← List.singleton_append, List.append_cancel_right_eq] at hnew
  rw [← hnew, List.mem_singleton] at ho
  exact hne t p ho

/-- Every change keeps the account. -/
theorem account_effect (he : Effect e D₀ m m') (hwf : Wf m) (hwf₀ : Wf { d := D₀ })
    (hcalm : Calmed { d := D₀ })
    (hunowed : ∀ t p, m.d.trace = .received t p :: D₀.trace → m.owed = none)
    (h : Account a r m) : Account a r m' := by
  have hkeep := h.keep he hwf
  have hadvance := h.advance he hwf
  have hold : a ≠ m.d.nextAddr := Nat.ne_of_lt h.ends.near
  have hsame : ∀ s s', Open a r m → m.d.sockets a = some s → m.d.sockets a = some s' →
      s'.pkts = s.pkts := by
    intro s s' _ hs hs'
    cases hs.symm.trans hs'
    rfl
  have hfree : ∀ {b : Addr} (s s' : Asocket), Open a r m → m.d.sockets a = some s →
      update m.d.sockets b none a = some s' → s'.pkts = s.pkts := by
    intro b s s' _ hs hs'
    rw [eq_of_free hs hs']
  have hnew : ∀ {y : Option Asocket} (s s' : Asocket), Open a r m → m.d.sockets a = some s →
      update m.d.sockets m.d.nextAddr y a = some s' → s'.pkts = s.pkts := by
    intro y s s' _ hs hs'
    rw [eq_of_other hold hs hs']
  have hclear : ∀ {b : Addr}, (none : Option Addr) ≠ some b := nofun
  have hnone : ∀ {b : Addr}, b ≠ a → ((none : Option Addr) = some a ↔ some b = some a) := by
    intro b hb
    simp [hb]
  -- an observation of another socket, or of another stream
  have hother : ∀ {o : Obs}, Silent a r o → Same a r m.d.trace (o :: m.d.trace) := same_cons
  cases he
  case note o ho =>
    by_cases hmine : ∃ bs out, o = .enqueued a bs out
    · obtain ⟨bs, out, rfl⟩ := hmine
      refine hadvance (fun s s' hopen => ?_) (always_cons.mpr ⟨Bool.noConfusion, h.prompt⟩)
      exact absurd ho (hopen.local_ hwf).1
    · refine hkeep (hother ?_) (fun _ => Iff.rfl) hsame
      cases o with
      | enqueued b bs out => exact fun hb => hmine ⟨bs, out, by rw [hb]⟩
      | wrote | sent => exact ho.elim
      | _ => trivial
  case waive b z hz howed hpeer =>
    refine hkeep same_refl (fun hopen => ?_) hsame
    have hba : b ≠ a := by
      rintro rfl
      obtain ⟨-, s, hs, hp⟩ := hopen.local_ hwf
      obtain ⟨-, q, hq, hrem, -⟩ := hopen
      cases hz.symm.trans hs
      exact hpeer r q hp hq hrem
    rw [howed]
    exact hnone hba
  case send via p u x hx hmay hop habout hcmd hsync =>
    refine hkeep (hother fun hvia => ?_) (fun _ => Iff.rfl) hsame
    subst hvia
    rw [habout.2.2.1]
    decide
  case okay b r' z q p u x hb hz hq hp hrem hx hmay hop howed hcmd hid hdest =>
    by_cases hr : r' = r
    · subst hr
      have hopen : Open b r' m := open_of_peer hwf hb hz hp hq hrem
      obtain rfl := h.ends.only b hopen
      have hbooks := h.books hopen z hz
      have hall := hbooks.all_taken.mpr (hbooks.idle howed)
      refine hadvance (fun s s' _ _ hs hs' hb' => ?_) (always_cons.mpr ⟨fun _ => hall, h.prompt⟩)
      cases hs.symm.trans hs'
      have hcount := hb'.count
      rw [if_pos howed, if_pos (hb'.idle howed)] at hcount
      refine ⟨hb'.bytes, hb'.first, fun hno => absurd hno hclear, ?_,
        always_cons.mpr ⟨Bool.noConfusion, hb'.counted⟩⟩
      change okays r' (.sent u (some r') p :: m.d.trace) + 0 + _ = 1 + rounds b m.d.trace
      have hokay : isOkay r' (.sent u (some r') p) = true := by simp [isOkay, hcmd]
      rw [okays_cons, if_pos hokay, if_pos (hb'.idle howed)]
      exact hcount
    · refine hkeep (hother fun hvia => absurd (Option.some.inj hvia) hr) (fun hopen => ?_) hsame
      have hba : b ≠ a := by
        rintro rfl
        obtain ⟨-, s, hs, hps⟩ := hopen.local_ hwf
        cases hz.symm.trans hs
        exact hr (Option.some.inj (hp.symm.trans hps))
      rw [howed]
      exact hnone hba
  case destroy b z hz hfree => exact hkeep (hother trivial) (fun _ => Iff.rfl) hsame
  case unpeer b z hz hb =>
    exact hkeep same_refl (fun _ => Iff.rfl) fun s s' _ => field_assign Asocket.pkts hz rfl
  case unname b z hz hl hb =>
    exact hkeep same_refl (fun _ => Iff.rfl) fun s s' _ => field_assign Asocket.pkts hz rfl
  case free => exact hkeep same_refl (fun _ => Iff.rfl) hfree
  case freeTracker => exact hkeep same_refl (fun _ => Iff.rfl) hfree
  case dropRemote => exact hkeep same_refl (fun _ => Iff.rfl) hfree
  case retire b z i ev L hz hb hops hp hc hq hin hset hev hread =>
    exact hkeep (hother trivial) (fun _ => Iff.rfl) fun s s' _ => field_assign Asocket.pkts hz rfl
  case createFd => exact hkeep same_refl (fun _ => Iff.rfl) hnew
  case createJdwp => exact hkeep same_refl (fun _ => Iff.rfl) hnew
  case createTracker => exact hkeep same_refl (fun _ => Iff.rfl) hnew
  case accept b z hz hb hp hops hc hl hin =>
    refine hkeep same_refl (fun _ => Iff.rfl) fun s s' hopen hs hs' => ?_
    have hab : a ≠ b := fun hno => (hopen.local_ hwf).1 (hno ▸ hb)
    rw [eq_of_pair hab hold hs hs']
  case pair b z id u x hz hp hc hl hin hnew hx hserve hon opened hopened =>
    have htrace : Same a r m.d.trace ((if opened then [.opened m.d.nextAddr b] else []) ++
        .stream m.d.nextAddr b z.id id u :: m.d.trace) := by
      have hstream : Same a r m.d.trace (.stream m.d.nextAddr b z.id id u :: m.d.trace) :=
        hother trivial
      refine hstream.trans (same_append fun o ho => ?_)
      cases opened with
      | true =>
        rw [if_pos rfl, List.mem_singleton] at ho
        subst ho
        trivial
      | false => cases ho
    refine hkeep htrace (fun hopen => ?_) fun s s' hopen hs hs' => ?_
    all_goals
      obtain ⟨-, s₁, hs₁, hp₁⟩ := hopen.local_ hwf
      have hab : a ≠ b := by
        rintro rfl
        cases hz.symm.trans hs₁
        cases hp.symm.trans hp₁
    · cases opened with
      | true =>
        have hno : m.owed = none := (hopened rfl).unowed
        rw [hno]
        exact (hnone (Ne.symm hab)).symm
      | false => exact Iff.rfl
    · rw [eq_of_pair hab hold hs hs']
  case handOver b z t hz hb hops hc hl hin =>
    exact hkeep same_refl (fun _ => Iff.rfl) fun s s' _ => field_assign Asocket.pkts hz rfl
  case answered b z hz hops =>
    exact hkeep same_refl (fun _ => Iff.rfl) fun s s' _ => field_assign Asocket.pkts hz rfl
  case exits b z hz =>
    exact hkeep same_refl (fun _ => Iff.rfl) fun s s' _ => field_assign Asocket.pkts hz rfl
  case gather b z ps hz hops hc =>
    refine hkeep same_refl (fun _ => Iff.rfl) fun s s' hopen hs hs' => ?_
    have hab : a ≠ b := by
      rintro rfl
      obtain ⟨z', hend⟩ := hopen.localEnd hwf
      cases hz.symm.trans hend.live
      have hlocal := hend.isLocal
      rw [hops] at hlocal
      cases hlocal
    rw [eq_of_other hab hs hs']
  case enqueueDone b z bs hb hz hops hc hq howed hcause =>
    by_cases hba : b = a
    · subst hba
      refine hadvance (fun s s' _ _ hs hs' hbooks => ?_)
        (always_cons.mpr ⟨Bool.noConfusion, h.prompt⟩)
      cases hs.symm.trans hs'
      cases hs.symm.trans hz
      refine hbooks.enqueue rfl (List.append_nil bs).symm (List.append_nil _).symm
        (fun hno => absurd hq hno) hbooks.first ?_ ⟨fun _ => ⟨hq, hq⟩, fun _ => rfl⟩ id
      rw [howed]
      exact hclear
    · refine hkeep (hother hba) (fun _ => ?_) hsame
      rw [howed]
      exact (hnone hba).symm
  case enqueueLink b z p out ev L hb hz hops hc hout hin hset hev hread hcause hblock =>
    by_cases hba : b = a
    · subst hba
      obtain ⟨t, p₀, -, -, hreceived, -⟩ := hcause
      have howed := hunowed t p₀ hreceived
      refine hadvance (fun s s' _ _ hs hs' hbooks => ?_)
        (always_cons.mpr ⟨Bool.noConfusion, h.prompt⟩)
      cases hs.symm.trans hz
      cases eq_of_assign hs' rfl
      refine hbooks.enqueue rfl rfl ?_ (fun hq => ?_) ?_ ?_ ?_ ?_
      · rw [Asocket.queued, Asocket.queued, List.flatMap_append, List.flatMap_singleton]
      · rcases hout with ⟨-, hnil⟩ | ⟨hq', -⟩
        · exact hnil
        · exact absurd hq' hq
      · intro y hy
        rcases hout with ⟨hq, -⟩ | ⟨hq, hp⟩
        · rw [List.head?_append_of_ne_nil _ hq] at hy
          exact hbooks.first y hy
        · rw [hq, List.nil_append, List.head?_cons, Option.mem_some_iff] at hy
          exact hy ▸ hp
      · rw [howed]
        exact hclear
      · rw [show m.owed = none from howed]
        exact ⟨fun hno => absurd hno hclear, fun hno => absurd hno.2 (by simp)⟩
      · intro _
        simp
    · refine hkeep (hother hba) (fun _ => Iff.rfl) fun s s' _ hs hs' => ?_
      rw [eq_of_other (Ne.symm hba) hs hs']
  case drained b z ps out hb hz hops hbytes hlen hstuck hleft =>
    by_cases hba : b = a
    · subst hba
      refine hadvance (fun s s' hopen _ hs hs' hbooks => ?_)
        (always_cons.mpr ⟨Bool.noConfusion, h.prompt⟩)
      cases hs.symm.trans hz
      cases eq_of_assign hs' rfl
      obtain ⟨z', hend⟩ := hopen.localEnd hwf
      cases hs.symm.trans hend.live
      have hps : ps ≠ [] := by
        intro hno
        cases hend.closing.symm.trans (hleft hno)
      have hq : z.pkts ≠ [] := by
        intro hno
        rw [hno, List.length_nil, Nat.le_zero, List.length_eq_zero_iff] at hlen
        exact hps hlen
      refine hbooks.take rfl hbytes.symm hq hstuck ?_
      exact ⟨fun ho => absurd (hbooks.idle ho) hq, fun hno => absurd hno hps⟩
    · refine hkeep (hother hba) (fun _ => Iff.rfl) fun s s' _ hs hs' => ?_
      rw [eq_of_other (Ne.symm hba) hs hs']
  case flushed b z ev L hb hz hops hc hin hset hev hread hwrite hevents howed hcause hbef =>
    by_cases hba : b = a
    · subst hba
      refine hadvance (fun s s' _ _ hs hs' hbooks => ?_)
        (always_cons.mpr ⟨Bool.noConfusion, h.prompt⟩)
      cases hs.symm.trans hz
      cases eq_of_assign hs' rfl
      have hq : z.pkts ≠ [] := hcalm.queued hwf₀ hbef hops hc hcause
      refine hbooks.take rfl ?_ hq ?_ ⟨fun _ => rfl, fun _ => rfl⟩
      · exact (List.append_nil _).symm
      · intro y hy
        cases hy
    · refine hkeep (hother hba) (fun _ => ?_) fun s s' _ hs hs' => ?_
      · rw [howed]
        exact (hnone hba).symm
      · rw [eq_of_other (Ne.symm hba) hs hs']
  case wrteRead b r' z q p u x ev L hb hz hops hp hto hin hset hev hread hwrite hevents hsub hby
      _ =>
    have hread : Same a r m.d.trace (.read b p.payload :: m.d.trace) := hother trivial
    refine hkeep (hread.trans (same_cons fun _ => ?_)) (fun _ => Iff.rfl) hsame
    rw [hto.command]
    decide
  case wrteJdwp b r' z q p u x hb hz hops hp hto hpass =>
    refine hkeep (hother fun _ => ?_) (fun _ => Iff.rfl) fun s s' _ =>
      field_assign Asocket.pkts hz rfl
    rw [hto.command]
    decide
  case wrteTracker b r' z q p u x hb hz hops hp hto hneed =>
    refine hkeep (hother fun _ => ?_) (fun _ => Iff.rfl) fun s s' _ =>
      field_assign Asocket.pkts hz rfl
    rw [hto.command]
    decide
  case unplug u x rest L hreg hx hrem hsame' hL own own' =>
    obtain ⟨os, htrace, hos⟩ := unplug_trace own own'
      (has (m.d.loop.mem (.transport u)).state fdeActive) m.d.trace
    have hquiet : Same a r m.d.trace (os ++ m.d.trace) := by
      refine same_append fun o ho => ?_
      rcases hos o ho with ⟨d, i, b, rfl⟩ | rfl <;> trivial
    exact hkeep (htrace ▸ hquiet) (fun _ => Iff.rfl) hsame
  case output u x y L R os n hidle hx hact hstep =>
    exact hkeep (same_append fun o ho => silent_of_thread (hstep.ofThread ho)) (fun _ => Iff.rfl)
      hsame
  case input u x y L R os n hidle hx hstart hstep =>
    exact hkeep (same_append fun o ho => silent_of_thread (hstep.ofThread ho)) (fun _ => Iff.rfl)
      hsame
  all_goals first
    | exact hkeep same_refl (fun _ => Iff.rfl) hsame
    | exact hkeep (same_cons trivial) (fun _ => Iff.rfl) hsame

end Account

/-! ## From the start -/

section Main

variable {e : Event} {D₀ D : Daemon} {m m' : Moment} {a r : Addr} {s : Asocket}

/-- What the descriptor of `a` takes, or is about to. -/
def isData (a : Addr) : Obs → Prop
  | .enqueued b _ _ => b = a
  | .wrote b _ => b = a
  | _ => False

lemma data_live (he : Effect e D₀ m m') (hwf : Wf m) {o : Obs} (ho : isData a o)
    (h : o ∈ m'.d.trace) : o ∈ m.d.trace ∨ a < m.d.nextAddr := by
  have hfresh : ∀ {b : Addr} {s : Asocket}, m.d.sockets b = some s → b < m.d.nextAddr :=
    fun hs => hwf.peers.fresh _ _ hs
  have hcons : ∀ {x : Obs} {os : List Obs}, ¬isData a x → o ∈ x :: os → o ∈ os := by
    intro x os hx hmem
    refine (List.mem_cons.mp hmem).resolve_left ?_
    rintro rfl
    exact hx ho
  have hself : ∀ {x : Obs} {b : Addr}, (isData a x → b = a) → b < m.d.nextAddr →
      o ∈ x :: m.d.trace → o ∈ m.d.trace ∨ a < m.d.nextAddr := by
    intro x b hx hb hmem
    rcases List.mem_cons.mp hmem with rfl | hmem
    · exact .inr (hx ho ▸ hb)
    · exact .inl hmem
  have happend : ∀ {os : List Obs}, (∀ x ∈ os, ¬isData a x) → o ∈ os ++ m.d.trace →
      o ∈ m.d.trace ∨ a < m.d.nextAddr := by
    intro os hos hmem
    exact .inl ((List.mem_append.mp hmem).resolve_left fun hno => hos o hno ho)
  cases he
  case note x hx =>
    cases x with
    | enqueued b bs out =>
      obtain ⟨z, hz⟩ := hwf.peers.orphan b hx
      exact hself id (hfresh hz) h
    | wrote => exact hx.elim
    | _ => exact .inl (hcons id h)
  case pair b z rid u x hz hp hc hl hin hnew hx hserve hon opened hopened =>
    cases opened with
    | true => exact .inl (hcons id (hcons id h))
    | false => exact .inl (hcons id h)
  case enqueueDone b z bs hb hz hops hc hq howed hcause => exact hself id (hfresh hz) h
  case enqueueLink b z p out ev L hb hz hops hc hout hin hset hev hread hcause hblock =>
    exact hself id (hfresh hz) h
  case drained b z ps out hb hz hops hbytes hlen hstuck hleft => exact hself id (hfresh hz) h
  case flushed b z ev L hb hz hops hc hin hset hev hread hwrite hevents howed hcause hbef =>
    exact hself id (hfresh hz) h
  case wrteRead => exact .inl (hcons id (hcons id h))
  case unplug u x rest L hreg hx hrem hsame hL own own' =>
    obtain ⟨os, htrace, hos⟩ := unplug_trace own own'
      (has (m.d.loop.mem (.transport u)).state fdeActive) m.d.trace
    refine @happend os (fun y hy => ?_) (htrace ▸ h)
    rcases hos y hy with ⟨d, i, b, rfl⟩ | rfl <;> exact id
  case output u x y L R os n hidle hx hact hstep =>
    refine happend (fun y hy => ?_) h
    have hthread := hstep.ofThread hy
    cases y <;> first | exact id | exact hthread.elim
  case input u x y L R os n hidle hx hstart hstep =>
    refine happend (fun y hy => ?_) h
    have hthread := hstep.ofThread hy
    cases y <;> first | exact id | exact hthread.elim
  all_goals first
    | exact .inl h
    | exact .inl (hcons id h)

/-- The change that opens a stream owes it an `A_OKAY`. -/
lemma owed_of_opened (he : Effect e D₀ m m') (hN : m'.d.nextAddr = m.d.nextAddr + 1) {o : Obs}
    (htrace : m'.d.trace = .opened r a :: o :: m.d.trace) :
    m'.owed = some a ∧ ∃ s, m.d.sockets a = some s ∧
      m'.d.sockets a = some { s with peer := some m.d.nextAddr } := by
  have hlong : m.d.trace ≠ .opened r a :: o :: m.d.trace := by
    intro hno
    have hlen := congrArg List.length hno
    rw [List.length_cons, List.length_cons] at hlen
    omega
  cases he
  case createFd => exact absurd htrace hlong
  case createJdwp => exact absurd htrace hlong
  case createTracker => exact absurd htrace hlong
  case accept => exact absurd htrace hlong
  case pair b z id u x hz hp hc hl hin hnew hx hserve hon opened hopened =>
    cases opened with
    | true =>
      cases (List.cons.inj htrace).1
      exact ⟨rfl, z, hz, update_self ..⟩
    | false => cases (List.cons.inj htrace).1
  all_goals exact absurd hN (Nat.ne_of_lt (Nat.lt_succ_self _))

/-- A stream from before its sockets exist. -/
structure Before (a r : Addr) (m : Moment) : Prop where
  calm : Calmed m
  base : ServiceBytes.Before a r m
  quiet : m.d.nextAddr ≤ a → ∀ o ∈ m.d.trace, ¬isData a o
  account : .opened r a ∈ m.d.trace → Account a r m

/-- The account of a stream that has just been opened. -/
lemma account_of_opened (he : Effect e D₀ m m') (hwf : Wf m) (h : Before a r m)
    (hstart : Before a r { d := D₀ }) (hopened : ServiceBytes.Tells D₀ m m' (.opened r a)) :
    Account a r m' := by
  obtain ⟨hr, hN, ⟨z, hz, hfresh⟩, ⟨q, hq, hrem, hpeer⟩, l, rid, t, htrace⟩ := hopened
  obtain ⟨howed, z', hz', hnew⟩ := owed_of_opened he hN htrace
  cases hz.symm.trans hz'
  obtain ⟨u, p, hreceived⟩ := hfresh.trace
  have hsilent : ∀ o ∈ m'.d.trace, Silent a r o := by
    intro o ho
    have hsent : ∀ t p, o ≠ .sent t (some r) p := by
      rintro t p rfl
      rw [htrace] at ho
      have ho := (List.mem_cons.mp ho).resolve_left Obs.noConfusion
      have ho := (List.mem_cons.mp ho).resolve_left Obs.noConfusion
      exact h.base.unsent hr.ge t p ho
    have hdata : ¬isData a o := by
      intro hno
      rw [htrace, hreceived] at ho
      have hne : ∀ {x : Obs}, ¬isData a x → o ≠ x := fun hx heq => hx (heq ▸ hno)
      have ho := (List.mem_cons.mp ho).resolve_left (hne id)
      have ho := (List.mem_cons.mp ho).resolve_left (hne id)
      have ho := (List.mem_cons.mp ho).resolve_left (hne id)
      exact hstart.quiet hfresh.addr o ho hno
    cases o with
    | enqueued b bs out => exact hdata
    | wrote b bs => exact hdata
    | sent t via p =>
      rintro rfl
      exact absurd rfl (hsent t p)
    | _ => trivial
  have hsame : Same a r [] m'.d.trace := by
    have happend := @same_append a r _ [] hsilent
    rwa [List.append_nil] at happend
  have ha : a < m'.d.nextAddr := hN ▸ Nat.lt_succ_of_lt (hwf.peers.fresh a z hz)
  have hfar : r < m'.d.nextAddr := by
    rw [hN, hr]
    exact Nat.lt_succ_self _
  refine ⟨⟨ha, hfar, fun q' hq' => ?_, fun b hb => ?_⟩, fun _ s hs => ?_, hsame.prompt always_nil⟩
  · cases hq.symm.trans hq'
    exact hrem
  · obtain ⟨-, q', hq', -, hp'⟩ := hb
    cases hq.symm.trans hq'
    exact Option.some.inj (hp'.symm.trans hpeer)
  · have hempty : s.pkts = [] := by
      cases hnew.symm.trans hs
      exact hfresh.pkts
    refine ⟨?_, fun p hp => ?_, fun _ => hempty, ?_, hsame.counted always_nil⟩
    · rw [hsame.given, hsame.taken, Asocket.queued, hempty]
      rfl
    · rw [hempty] at hp
      cases hp
    · rw [hsame.okays, hsame.rounds, if_pos howed, if_pos hempty]
      rfl

/-- Every change keeps what is known of a stream, be it open or not. -/
lemma before_kept (a r : Addr) : Kept (fun _ _ => True) (Before a r) := by
  intro e D m m' _ hwf₀ hstart hpath hwf h he
  have hN := StreamIds.nextAddr_le he
  refine ⟨calmed_effect he hwf h.calm, ServiceBytes.before_effect he hwf hstart.base h.base,
    fun hle o ho hdata => ?_, fun hopened => ?_⟩
  · rcases data_live he hwf hdata ho with ho | hlt
    · exact h.quiet (hN.trans hle) o ho hdata
    · exact absurd hlt (Nat.not_lt.mpr (hN.trans hle))
  · rcases ServiceBytes.tells he hwf hopened with hold | hnew
    · exact account_effect he hwf hwf₀ hstart.calm (fun _ _ => unowed_of_path hpath)
        (h.account hold)
    · exact account_of_opened he hwf h hstart hnew

lemma account_of_reachable (h : Reachable D) (hopened : .opened r a ∈ D.trace) :
    Account a r { d := D } := by
  refine ((before_kept a r).reachable (fun config fds inUse D hmain => ?_) h).account hopened
  obtain ⟨L, O, I, rfl⟩ := adbMain_eq hmain
  refine ⟨fun a s hs => ?_, ⟨fun _ _ => List.not_mem_nil, fun _ _ _ => List.not_mem_nil,
    fun hno => absurd hno List.not_mem_nil, fun hno => absurd hno List.not_mem_nil⟩,
    fun _ o ho => absurd ho List.not_mem_nil, fun hno => absurd hno List.not_mem_nil⟩
  cases hs

lemma books_of_reachable (h : Reachable D) (hopened : .opened r a ∈ D.trace)
    (hs : D.sockets a = some s) (hp : s.peer = some r) : Books a r { d := D } s := by
  have haccount := account_of_reachable h hopened
  have ha : a ∉ (∅ : Set Addr) := Set.notMem_empty a
  obtain ⟨-, q, hq, -, -⟩ := h.wf.peers.paired a s r ha hs hp
  exact haccount.books (open_of_peer h.wf ha hs hp hq (haccount.ends.remote q hq)) s hs

/-- What the host of the stream of `r` sends to the socket at `a` is accounted for. -/
structure Acknowledges (a r : Addr) (D : Daemon) : Prop where
  /-- While the stream is open, what was enqueued has been taken, in order, or is queued. -/
  bytes : ∀ s, D.sockets a = some s → s.peer = some r →
    given a D.trace = taken a D.trace ++ s.queued
  /-- There is one `A_OKAY` for the stream and one for each payload that found nothing queued;
  while something is queued, the last of them is outstanding. -/
  count : ∀ s, D.sockets a = some s → s.peer = some r →
    okays r D.trace + (if s.queued = [] then 0 else 1) = 1 + rounds a D.trace
  /-- No `A_OKAY` is sent while something is left to write. -/
  prompt : Always (Prompt a r) D.trace

/-- The account of every stream that an `A_OPEN` made, in every run. -/
theorem acknowledges (h : Reachable D) (hopened : .opened r a ∈ D.trace) : Acknowledges a r D := by
  refine ⟨fun s hs hp => ?_, fun s hs hp => ?_, (account_of_reachable h hopened).prompt⟩
  · exact (books_of_reachable h hopened hs hp).bytes
  · exact (books_of_reachable h hopened hs hp).outstanding nofun

end Main

/-! ## Two runs -/

/-- A shell takes a byte of `hi!` at once and the rest later; the host waits, and sends `x`, of
which nothing is taken. -/
def takesSlowly : List Event :=
  openShell ++ carry 0 11 (packetOf aWrte 7 1 (str "hi!")) { writes := [.wrote 1, .again] } ++
    writable 13 { writes := [.wrote 2] } ++
    carry 0 11 (packetOf aWrte 7 1 (str "x")) { writes := [.again] }

/-- The two theorems on that run. -/
theorem acknowledges_slowly : ∃ D, Reachable D ∧ .opened 1 0 ∈ D.trace ∧ Acknowledges 0 1 D := by
  obtain ⟨D, hD, hopened⟩ := @exists_reachable Bool unlocked [3, 4, 6, 7, 8, 9] (fun _ => false)
    takesSlowly (fun D => decide (Obs.opened 1 0 ∈ D.trace)) true (by decide +kernel)
  have hopened := of_decide_eq_true hopened
  exact ⟨D, hD, hopened, acknowledges hD hopened⟩

end Adbd.Acknowledged
