import Adbd.Effects.Kinds
import Adbd.Properties.PeerLinks

/-!
# Draining a queue without a peer

When `local_socket_event_func` has written all that was queued on a socket, it calls the `ready`
of the socket's peer; the `FDE_READ` branch looks whether there is a peer, the `FDE_WRITE` branch
does not.  The client of a smart socket has none from the moment it is handed over to a transport
until the `A_OKAY` to its `A_OPEN` comes in, and `handle_packet` gives an `A_WRTE` to any socket
with the right id.  So a host that sends data too early, to a client that does not read, stops the
daemon.

A socket is only asked to write while packets are queued on it.  So the peer is there if nothing
is ever queued on a socket that has none: neither by an `A_WRTE` that the descriptor does not take
at once, nor by a client that is handed over with packets left from before.
-/

namespace Adbd.DrainPeers

open Function FlagWord Transition Relation Daemon PeerLinks

/-! ## The steps that queue packets on a socket without a peer -/

/-- The step leaves packets queued on a socket that has no peer. -/
inductive Strands (e : Event) (D : Daemon) : Prop
  /-- An `A_WRTE` for a socket without a peer is not written at once. -/
  | early (t : TAddr) (p : Apacket) (a : Addr) (s : Asocket) (h : Reaches e D t p a)
      (hcmd : p.msg.command = aWrte) (hs : D.sockets a = some s) (hfd : s.ops.isFd = true)
      (hp : s.peer = none) (hq : s.pkts ≠ [] ∨ (writeLoop p.payload e.io.writes).2.1 = .again)
  /-- A client of a smart socket is handed over with packets queued. -/
  | late (a : Addr) (h : HandsOver e D a)

/-- The socket is not asked to write, and no such event is pending. -/
def Calm (L : Loop FdeId) (a : Addr) : Prop :=
  has (L.mem (.socket a)).state fdeWrite = false ∧
    has (L.mem (.socket a)).events fdeWrite = false

/-- Sockets without a peer have nothing queued, and sockets with nothing queued are not asked to
write; those that are being closed aside. -/
structure Fed (m : Moment) : Prop where
  queue : ∀ a s, a ∉ m.orphans → m.d.sockets a = some s → s.ops.isFd = true →
    s.closing = false → s.peer = none → s.pkts = []
  calm : ∀ a s, m.d.sockets a = some s → s.ops.isFd = true → s.closing = false → s.pkts = [] →
    Calm m.d.loop a

/-! ## Nobody asks an empty socket to write -/

section Loop

variable {L L' M : Loop FdeId} {a : Addr} {k : FdeId} {n : ℕ} {ev : BitVec 16}
  {mask rep : EpollMask}

lemma calm_of_mem (h : L'.mem (.socket a) = L.mem (.socket a)) (hc : Calm L a) : Calm L' a := by
  rw [Calm, h]
  exact hc

lemma calm_new (f : Fdevent) (hmem : L.mem (.socket a) = f) (hs : has f.state fdeWrite = false)
    (he : f.events = 0#16) : Calm L a := by
  rw [Calm, hmem, he]
  exact ⟨hs, has_zero_left _⟩

lemma calm_of_set (h : Loop.SetSpec k ev L L')
    (hev : k = .socket a → has ev fdeWrite = has (L.mem k).state fdeWrite) (hc : Calm L a) :
    Calm L' a := by
  by_cases hk : k = .socket a
  · subst hk
    refine ⟨?_, ?_⟩
    · rw [has_congr h.low (by decide), hev rfl]
      exact hc.1
    · by_contra hyes
      rw [Bool.not_eq_false] at hyes
      have hold := h.events _ hyes
      rw [hc.2] at hold
      cases hold
  · exact calm_of_mem (h.mem_other _ (Ne.symm hk)) hc

lemma calm_of_remove (h : Loop.RemoveSpec k L L') (hc : Calm L a) : Calm L' a := by
  by_cases hk : k = .socket a
  · subst hk
    rw [Calm, h.mem_self]
    exact ⟨has_zero_left _, has_zero_left _⟩
  · exact calm_of_mem (h.mem_other _ (Ne.symm hk)) hc

lemma calm_of_install (h : L.fdeventInstall k n = .ok L') (hc : Calm L a) : Calm L' a := by
  obtain ⟨T, M, rfl, -⟩ := Loop.fdeventInstall_ok h
  by_cases hk : k = .socket a
  · subst hk
    have hactive : has fdeActive fdeWrite = false := by decide
    exact calm_new _ (Loop.setMem_mem_self ..) hactive rfl
  · exact calm_of_mem (Loop.setMem_mem_of_ne (Ne.symm hk) ..) hc

lemma calm_of_setMem (f : Fdevent) (hs : has f.state fdeWrite = has (L.mem k).state fdeWrite)
    (he : has (L.mem k).events fdeWrite = false → has f.events fdeWrite = false)
    (hc : Calm L a) : Calm (L.setMem k f) a := by
  by_cases hk : k = .socket a
  · subst hk
    rw [Calm, Loop.setMem_mem_self, hs]
    exact ⟨hc.1, he hc.2⟩
  · exact calm_of_mem (Loop.setMem_mem_of_ne (Ne.symm hk) ..) hc

/-- The kernel only reports that a descriptor can be written if it was asked to. -/
lemma calm_of_report {K : Set FdeId} {X : Set Addr} {S : Addr → Option Asocket}
    {T : TAddr → Bool} (h : LoopWf K X S T L) (hn : L.interest n = some (mask, k))
    (hrep : reportable rep mask = true) (hc : Calm L a) : Calm (L.fdeventReport k rep) a := by
  by_cases hk : k = .socket a
  · subst hk
    have hout : rep.pollOut = false := by
      obtain ⟨-, -, hm⟩ := h.entry n mask _ hn (h.covers a)
      have hmask : mask.pollOut = false := by
        rw [hm]
        exact hc.1
      rw [reportable, hmask, Bool.or_false, Bool.and_eq_true, Bool.not_eq_true'] at hrep
      exact hrep.2
    have hev : has ((L.mem (.socket a)).events ||| Loop.fdeEvents rep) fdeWrite = false := by
      rw [has_or, hc.2, Bool.false_or, Loop.fdeEvents, hout]
      cases rep.pollIn <;> cases rep.pollErr <;> decide
    have hpend : has ((L.mem (.socket a)).state ||| fdePending) fdeWrite = false := by
      rw [has_or, hc.1]
      decide
    unfold Loop.fdeventReport
    simp only
    split
    · rw [Calm, Loop.setMem_mem_self]
      exact ⟨hc.1, hev⟩
    split
    · rw [Calm, Loop.setMem_mem_self]
      exact ⟨hc.1, hev⟩
    · rw [Calm, Loop.fdeventPlistEnqueue, Loop.setMem_mem_self]
      exact ⟨hpend, hev⟩
  · have hne : FdeId.socket a ≠ k := Ne.symm hk
    unfold Loop.fdeventReport
    simp only
    split
    · exact calm_of_mem (Loop.setMem_mem_of_ne hne ..) hc
    split
    · exact calm_of_mem (Loop.setMem_mem_of_ne hne ..) hc
    · refine calm_of_mem ?_ hc
      exact (Loop.setMem_mem_of_ne hne ..).trans (Loop.setMem_mem_of_ne hne ..)

lemma calm_of_dispatch (h : L.fdeventPlistDequeue = some (k, L')) (hc : Calm L a) :
    Calm (L'.fdeventCallFdfunc k).2 a := by
  obtain ⟨rest, hlist, rfl⟩ := Loop.fdeventPlistDequeue_eq h
  have hzero : has (0#16) fdeWrite = false := by decide
  unfold Loop.fdeventCallFdfunc
  simp only
  split
  · refine calm_of_setMem _ ?_ (fun _ => hzero) (calm_of_mem rfl hc)
    exact has_and_not_of_disjoint (by decide)
  · exact calm_of_setMem _ rfl (fun _ => hzero) (calm_of_mem rfl hc)

end Loop

/-! ## What a change does to the queues -/

section Frames

variable {e : Event} {D₀ D : Daemon} {m m' : Moment} {a : Addr} {s s' q : Asocket}

/-- The sockets are as they were. -/
lemma Fed.same (h : Fed m) (hsock : m'.d.sockets = m.d.sockets)
    (hX : ∀ b, b ∉ m'.orphans → b ∉ m.orphans)
    (hloop : ∀ b, Calm m.d.loop b → Calm m'.d.loop b) : Fed m' := by
  refine ⟨fun b t hb ht => ?_, fun b t ht hfd hc hq => ?_⟩
  · exact h.queue b t (hX b hb) (hsock ▸ ht)
  · exact hloop b (h.calm b t (hsock ▸ ht) hfd hc hq)

/-- One socket is new, or rewritten. -/
lemma Fed.assign (h : Fed m) (hsock : m'.d.sockets = update m.d.sockets a (some s'))
    (hX : ∀ b, b ≠ a → b ∉ m'.orphans → b ∉ m.orphans)
    (hloop : ∀ b, b ≠ a → Calm m.d.loop b → Calm m'.d.loop b)
    (hqueue : a ∉ m'.orphans → s'.ops.isFd = true → s'.closing = false → s'.peer = none →
      s'.pkts = [])
    (hcalm : s'.ops.isFd = true → s'.closing = false → s'.pkts = [] → Calm m'.d.loop a) :
    Fed m' := by
  refine ⟨fun b t hb ht hfd hc hp => ?_, fun b t ht hfd hc hq => ?_⟩
  all_goals
    rw [hsock] at ht
    by_cases hba : b = a
  · subst hba
    rw [update_self, Option.some.injEq] at ht
    subst ht
    exact hqueue hb hfd hc hp
  · rw [update_of_ne hba] at ht
    exact h.queue b t (hX b hba hb) ht hfd hc hp
  · subst hba
    rw [update_self, Option.some.injEq] at ht
    subst ht
    exact hcalm hfd hc hq
  · rw [update_of_ne hba] at ht
    exact hloop b hba (h.calm b t ht hfd hc hq)

/-- A socket keeps what counts, and is settled no more than before. -/
lemma Fed.rewrite (h : Fed m) (hs : m.d.sockets a = some s)
    (hsock : m'.d.sockets = update m.d.sockets a (some s')) (hX : m'.orphans = m.orphans)
    (hloop : m'.d.loop = m.d.loop) (hfd : s'.ops.isFd = s.ops.isFd)
    (hc : s'.closing = s.closing) (hq : s'.pkts = s.pkts)
    (hp : a ∈ m.orphans ∨ s'.peer = s.peer) : Fed m' := by
  refine h.assign hsock (fun _ _ hb => hX ▸ hb) (fun _ _ hb => hloop.symm ▸ hb) ?_ ?_
  · intro ha hfd' hc' hp'
    rcases hp with hX' | hsame
    · exact absurd (hX ▸ hX') ha
    · rw [hq]
      exact h.queue a s (hX ▸ ha) hs (hfd ▸ hfd') (hc ▸ hc') (hsame ▸ hp')
  · intro hfd' hc' hq'
    rw [hloop]
    exact h.calm a s hs (hfd ▸ hfd') (hc ▸ hc') (hq ▸ hq')

/-- A socket is freed. -/
lemma Fed.free (h : Fed m) (hsock : m'.d.sockets = update m.d.sockets a none)
    (hX : m'.orphans = m.orphans \ {a}) (hloop : m'.d.loop = m.d.loop) : Fed m' := by
  have hne : ∀ b t, m'.d.sockets b = some t → b ≠ a ∧ m.d.sockets b = some t := by
    intro b t ht
    rw [hsock] at ht
    by_cases hba : b = a
    · rw [hba, update_self] at ht
      cases ht
    · rw [update_of_ne hba] at ht
      exact ⟨hba, ht⟩
  refine ⟨fun b t hb ht => ?_, fun b t ht hfd hc hq => ?_⟩
  · obtain ⟨hba, ht⟩ := hne b t ht
    exact h.queue b t (fun hbX => hb (hX ▸ ⟨hbX, hba⟩)) ht
  · rw [hloop]
    exact h.calm b t (hne b t ht).2 hfd hc hq

/-- A socket is paired with a new one that has no descriptor. -/
lemma Fed.pair (h : Fed m) (hs : m.d.sockets a = some s) (hne : a ≠ m.d.nextAddr)
    (hsock : m'.d.sockets = update (update m.d.sockets m.d.nextAddr (some q)) a
      (some { s with peer := some m.d.nextAddr }))
    (hq : q.ops.isFd = false) (hX : m'.orphans = m.orphans \ {a})
    (hloop : m'.d.loop = m.d.loop.setMem (.socket m.d.nextAddr) {}) : Fed m' := by
  have hcalm : ∀ b, b ≠ m.d.nextAddr → Calm m.d.loop b → Calm m'.d.loop b := by
    intro b hb hcalm
    rw [hloop]
    refine calm_of_mem (Loop.setMem_mem_of_ne ?_ ..) hcalm
    intro heq
    exact hb (FdeId.socket.inj heq)
  have hnew : Fed { m with d := { m.d with
      sockets := update m.d.sockets m.d.nextAddr (some q)
      loop := m.d.loop.setMem (.socket m.d.nextAddr) {} } } := by
    refine h.assign rfl (fun _ _ hb => hb) (fun b hb hold => ?_) (fun _ hfd => ?_) fun hfd => ?_
    · exact hloop ▸ hcalm b hb hold
    · rw [hq] at hfd
      cases hfd
    · rw [hq] at hfd
      cases hfd
  refine hnew.assign hsock (fun b hb hX' hbX => hX' (hX ▸ ⟨hbX, hb⟩)) (fun b _ hold => ?_) ?_ ?_
  · rw [hloop]
    exact hold
  · intro _ _ _ hp
    cases hp
  · intro hfd hc hpk
    exact hcalm a hne (h.calm a s hs hfd hc hpk)

/-! ## Every change of a step that strands nothing -/

lemma fed_kept : Kept (fun e D => ¬Strands e D) Fed := by
  intro e D m m' hC _ _ _ hwf h he
  have hfresh : ∀ {b : Addr} {t : Asocket}, m.d.sockets b = some t → b ≠ m.d.nextAddr :=
    fun ht => Nat.ne_of_lt (hwf.peers.fresh _ _ ht)
  have hloop : ∀ {M : Loop FdeId}, (∀ b, Calm m.d.loop b → Calm M b) →
      Fed { m with d := { m.d with loop := M } } := fun hM => h.same rfl (fun _ hb => hb) hM
  have hnew : ∀ b, b ≠ m.d.nextAddr → Calm m.d.loop b →
      Calm (m.d.loop.setMem (.socket m.d.nextAddr) {}) b := by
    intro b hb hc
    exact calm_of_mem (Loop.setMem_mem_of_ne (fun heq => hb (FdeId.socket.inj heq)) ..) hc
  cases he
  case sever a p s hs hp ha =>
    refine h.same rfl (fun b hb hbX => hb ?_) fun _ hb => hb
    exact Set.mem_insert_of_mem _ (Set.mem_insert_of_mem _ hbX)
  case single a s hs hp =>
    exact h.same rfl (fun b hb hbX => hb (Set.mem_insert_of_mem _ hbX)) fun _ hb => hb
  case unpeer a s hs ha => exact h.rewrite hs rfl rfl rfl rfl rfl rfl (.inl ha)
  case unname a s hs hl ha => exact h.rewrite hs rfl rfl rfl rfl rfl rfl (.inl ha)
  case uninstall a L hs ha hrem => exact hloop fun b => calm_of_remove hrem
  case free => exact h.free rfl rfl rfl
  case freeTracker => exact h.free rfl rfl rfl
  case dropRemote => exact h.free rfl rfl rfl
  case retire a s i ev L hs ha hops hp hclosing hq hin hset hev hread =>
    refine h.assign rfl (fun b hb hX hbX => hX ⟨hbX, hb⟩) (fun b hb => ?_) ?_ ?_
    · refine calm_of_set hset fun heq => ?_
      exact absurd (FdeId.socket.inj heq).symm hb
    · intro _ _ hc
      cases hc
    · intro _ hc
      cases hc
  case createFd n L hfirst hown hins =>
    refine h.assign rfl (fun b hb hX hbX => hX (Set.mem_insert_of_mem _ hbX)) (fun b hb hc => ?_)
      (fun _ _ _ _ => rfl) fun _ _ _ => ?_
    · exact calm_of_install hins (hnew b hb hc)
    · refine calm_of_install hins ?_
      exact calm_new {} (Loop.setMem_mem_self ..) (by decide) rfl
  case createJdwp hfirst =>
    refine h.assign rfl (fun b hb hX hbX => hX (Set.mem_insert_of_mem _ hbX)) hnew ?_ ?_
    · intro _ hfd
      cases hfd
    · intro hfd
      cases hfd
  case createTracker hfirst =>
    refine h.assign rfl (fun b hb hX hbX => hX (Set.mem_insert_of_mem _ hbX)) hnew ?_ ?_
    · intro _ hfd
      cases hfd
    · intro hfd
      cases hfd
  case accept a s hs ha hp hops hclosing hl hin => exact h.pair hs (hfresh hs) rfl rfl rfl rfl
  case pair a s id t x hs hp hclosing hl hin hnew' hx hserve honline opened hopened =>
    exact h.pair hs (hfresh hs) rfl rfl rfl rfl
  case handOver a s t hs ha hops hclosing hl hin =>
    exact h.rewrite hs rfl rfl rfl (by rw [hops]; rfl) rfl rfl (.inl ha)
  case await a s ev L hs ha hops hp hclosing hl hin hset hev hread hevents hwrite hlate =>
    have hfd : s.ops.isFd = true := by rw [hops]; rfl
    have hset' : ∀ b, Calm m.d.loop b → Calm L b :=
      fun b => calm_of_set hset fun _ => hwrite
    have hsame : m.d.sockets = update m.d.sockets a (some s) :=
      (update_eq_self_iff.mpr hs.symm).symm
    refine h.assign hsame (fun b hb hX hbX => hX ⟨hbX, hb⟩) (fun b _ => hset' b) ?_ ?_
    · intro _ _ _ _
      by_contra hq
      exact hC (.late a (hlate hq))
    · intro _ hc hq
      exact hset' a (h.calm a s hs hfd hc hq)
  case answered a s hs hops =>
    exact h.rewrite hs rfl rfl rfl (by rw [hops]; rfl) rfl rfl (.inr rfl)
  case exits a s hs => exact h.rewrite hs rfl rfl rfl rfl rfl rfl (.inr rfl)
  case gather a s ps hs hops hclosing =>
    refine h.assign rfl (fun _ _ hb => hb) (fun _ _ hb => hb) (fun _ hfd => ?_) fun hfd => ?_
    all_goals
      rw [show s.ops = .smart from hops] at hfd
      cases hfd
  case enqueueLink a s p out ev L ha hs hops hclosing hout hin hset hev hread hcause hblock =>
    refine h.assign rfl (fun _ _ hb => hb) (fun b hb => ?_) ?_ ?_
    · refine calm_of_set hset fun heq => ?_
      exact absurd (FdeId.socket.inj heq).symm hb
    · -- the socket had no peer when the step began
      intro _ _ _ hp
      exfalso
      obtain ⟨t, p₀, hreach, hcmd, -, hsock⟩ := hcause
      by_cases hq : s.pkts = []
      · obtain ⟨u, p₁, hreach₁, hcmd₁, hagain⟩ := hblock hq
        exact hC (.early u p₁ a s hreach₁ hcmd₁ (hsock ▸ hs) hops hp (.inr hagain))
      · exact hC (.early t p₀ a s hreach hcmd (hsock ▸ hs) hops hp (.inl hq))
    · intro _ _ hq
      exact absurd hq (by simp)
  case drained a s ps out ha hs hops hbytes hlen hstuck hleft =>
    refine h.assign rfl (fun _ _ hb => hb) (fun _ _ hb => hb) (fun _ _ hc hp => ?_)
      fun _ hc hq => ?_
    · have hnil := h.queue a s ha hs hops hc hp
      rw [hnil, List.length_nil, Nat.le_zero] at hlen
      exact List.length_eq_zero_iff.mp hlen
    · rw [show s.closing = true from hleft hq] at hc
      cases hc
  case flushed a s ev L ha hs hops hclosing hin hset hev hread hwrite hevents howed hcause hbef =>
    refine h.assign rfl (fun _ _ hb => hb) (fun b hb => ?_) (fun _ _ _ _ => rfl) fun _ _ _ => ?_
    · refine calm_of_set hset fun heq => ?_
      exact absurd (FdeId.socket.inj heq).symm hb
    · refine ⟨?_, ?_⟩
      · rw [has_congr hset.low (by decide)]
        exact hwrite
      · by_contra hyes
        rw [Bool.not_eq_false] at hyes
        rw [hset.events _ hyes] at hevents
        cases hevents
  case subscribe a s ev L hs hops hin hset hev hread hsmart hwrite =>
    exact hloop fun b => calm_of_set hset fun _ => hwrite
  case grant a s ev L hs hops hin hset hev hread hwrite hp hcredit =>
    exact h.same rfl (fun _ hb => hb) fun b => calm_of_set hset fun _ => hwrite
  case wrteRead a r s q p t x ev L ha hs hops hp hto hin hset hev hread hwrite hevents hsub hb _ =>
    exact h.same rfl (fun _ hb => hb) fun b => calm_of_set hset fun _ => hwrite
  case wrteJdwp a r s q p t x ha hs hops hp hto hpass =>
    exact h.rewrite hs rfl rfl rfl rfl rfl rfl (.inr rfl)
  case wrteTracker a r s q p t x ha hs hops hp hto hneed =>
    exact h.rewrite hs rfl rfl rfl rfl rfl rfl (.inr rfl)
  case report n rep mask k hn hrep => exact hloop fun b => calm_of_report hwf.loop hn hrep
  case dispatch k L hd => exact hloop fun b => calm_of_dispatch hd
  case force n k ev hk hev =>
    refine hloop fun b => calm_of_setMem _ rfl fun hno => ?_
    have hread : has fdeRead fdeWrite = false := by decide
    rcases hev with rfl | rfl | rfl
    · exact hno
    · rw [has_or, hno, hread]
      rfl
    · exact has_zero_left _
  case rearm L ev hset => exact hloop fun b => calm_of_set hset fun heq => by cases heq
  case confirm t n p L M hp hcmd hn hfwd hhist hL hM =>
    refine h.same rfl (fun _ hb => hb) fun b hb => ?_
    exact calm_of_set (Loop.fdeventSet_spec hM) (fun heq => by cases heq) (calm_of_install hL hb)
  case authDropped t L hrem =>
    exact h.same rfl (fun _ hb => hb) fun b => calm_of_remove (Loop.fdeventRemove_spec hrem)
  case start t x rest n k L M hreg hx hn hk hnk hL hM =>
    refine h.same rfl (fun _ hb => hb) fun b hb => ?_
    refine calm_of_set (Loop.fdeventSet_spec hM) (fun heq => by cases heq) ?_
    exact calm_of_install hL (calm_of_mem rfl hb)
  case unplug t x rest L hreg hx hrem hsame hL own own' =>
    refine h.same rfl (fun _ hb => hb) fun b hb => ?_
    exact calm_of_mem (L := L) rfl (calm_of_remove (Loop.fdeventRemove_spec hL) hb)
  case output t x y L R os n hidle hx hact hstep =>
    refine h.same rfl (fun _ hb => hb) fun b hb => ?_
    exact hstep.closes (P := fun L => Calm L b) (fun _ _ hc => calm_of_mem rfl hc) hb
  case input t x y L R os n hidle hx hstart hstep =>
    refine h.same rfl (fun _ hb => hb) fun b hb => ?_
    exact hstep.closes (P := fun L => Calm L b) (fun _ _ hc => calm_of_mem rfl hc) hb
  case closed n hn => exact hloop fun b hb => calm_of_mem rfl hb
  all_goals exact h.same rfl (fun _ hb => hb) fun b hb => calm_of_mem rfl hb

end Frames

/-! ## The main result -/

section Main

variable {e : Event} {D : Daemon} {a : Addr} {s : Asocket} {ev : BitVec 16}
  {rs : List Syscall.ReadResult}

/-- The exit of a shell forces a read event on an `fdevent` of the table. -/
lemma forced_eq_some {io : Io} {k : FdeId} (h : D.forced io = some (k, ev, rs)) :
    (∃ n, D.loop.fdTable n = .fde k) ∧ ev = (D.loop.mem k).events ||| fdeRead := by
  rw [forced] at h
  split at h
  case isFalse => cases h
  case isTrue =>
    split at h
    case h_1 => cases h
    case h_2 bs rs' hread =>
      simp only at h
      split at h
      case isTrue => cases h
      case isFalse =>
        split at h
        case h_2 => cases h
        case h_1 j hslot =>
          split at h
          case isFalse => cases h
          case isTrue =>
            cases h
            exact ⟨⟨_, hslot⟩, rfl⟩

/-- The event function of a socket is called while the event loop refers to the socket, and with
no write event that was not pending. -/
lemma delivered_socket (h : Wf { d := D }) (hd : D.delivered e = some (.socket a, ev, rs))
    (hw : has ev fdeWrite = true) :
    D.loop.Installed (.socket a) ∧ has (D.loop.mem (.socket a)).events fdeWrite = true := by
  rw [delivered] at hd
  split at hd
  case h_2 => cases hd
  case h_1 k rest hact hlist =>
    split at hd
    case isFalse => cases hd
    case isTrue hpend =>
      split at hd
      case isFalse hk =>
        cases hd
        have hmem : FdeId.socket a ∈ D.loop.listPending := hlist ▸ List.mem_cons_self
        exact ⟨(h.loop.pending _ hmem (h.loop.covers a)).1, hw⟩
      case isTrue hk =>
        obtain ⟨⟨n, hslot⟩, rfl⟩ := forced_eq_some hd
        refine ⟨(h.loop.slot n _ hslot (h.loop.covers a)).1, ?_⟩
        have hread : has fdeRead fdeWrite = false := by decide
        rwa [has_or, hread, Bool.or_false] at hw

/-- Whenever a socket that is not closing is told that it can write, it has a peer, in every run
whose steps leave nothing queued on a socket without one. -/
theorem writes_paired (h : ReachableBy (fun e D => ¬Strands e D) D)
    (hd : D.delivered e = some (.socket a, ev, rs)) (hw : has ev fdeWrite = true)
    (hs : D.sockets a = some s) (hc : s.closing = false) : s.peer ≠ none := by
  have hwf : Wf { d := D } := h.reachable.wf
  have hfed : Fed { d := D } := by
    refine fed_kept.reachableBy (fun config fds inUse D hmain => ?_) h
    obtain ⟨L, O, I, rfl⟩ := adbMain_eq hmain
    refine ⟨fun a s _ ha => ?_, fun a s ha => ?_⟩ <;> cases ha
  obtain ⟨hin, hevents⟩ := delivered_socket hwf hd hw
  obtain ⟨s', hs', hfd, -⟩ := hwf.loop.socket a hin
  cases hs.symm.trans hs'
  intro hp
  have hnil := hfed.queue a s (Set.notMem_empty a) hs hfd hc hp
  have hcalm := (hfed.calm a s hs hfd hc hnil).2
  rw [hevents] at hcalm
  cases hcalm

/-! ## Two runs -/

/-- The descriptor can be written. -/
def writable (n : ℕ) (io : Io) : List Event :=
  [⟨.epollWait [(n, ⟨false, true, false⟩)], {}⟩, ⟨.dispatch, io⟩]

/-- A host connects, a client asks for a service of it, and the host sends data to the client
before it has answered; the client does not take them at once. -/
def tooEarly : List Event :=
  connect 0 10 11 12 ++ carry 0 11 (packetOf aCnxn aVersion 4096 (str "host::" ++ [0])) {} ++
    handleNext 6 { fds := [13] } ++ handleNext 13 { reads := [.data (str "0001x")] } ++
    carry 0 11 (packetOf aWrte 5 1 (str "hi")) { writes := [.again] } ++
    [⟨.epollWait [(13, ⟨false, true, false⟩)], {}⟩]

/-- All that is queued can be written. -/
def drainAll : Event := ⟨.dispatch, { writes := [.wrote 2] }⟩

/-- Why a step stops. -/
def stopOf (x : Except Stop Daemon) : Option Stop :=
  match x with
  | .ok _ => none
  | .error r => some r

lemma error_of_stopOf {x : Except Stop Daemon} {r : Stop} (h : stopOf x = some r) :
    x = .error r := by
  cases x with
  | ok D => cases h
  | error r' => rw [Option.some.inj h]

/-- The host's data reach the client, which has no peer to be told. -/
theorem drained_unpaired : ∃ D s ev rs, Reachable D ∧
    D.delivered drainAll = some (.socket 0, ev, rs) ∧ has ev fdeWrite = true ∧
    D.sockets 0 = some s ∧ s.closing = false ∧
    (drain s.pkts drainAll.io.writes).ended = .done ∧ s.peer = none ∧
    D.step drainAll = .error (.nullPeer 0) := by
  obtain ⟨D, hD, hf⟩ := @exists_reachable Bool unlocked [3, 4, 6, 7, 8, 9] (fun _ => false)
    tooEarly (fun D =>
      decide ((D.delivered drainAll).map (fun x => (x.1, x.2.1)) = some (.socket 0, fdeWrite)) &&
      decide ((D.sockets 0).map (fun s => (s.closing, (drain s.pkts drainAll.io.writes).ended,
        s.peer)) = some (false, .done, none)) &&
      decide (stopOf (D.step drainAll) = some (.nullPeer 0))) true (by decide +kernel)
  simp only [Bool.and_eq_true, decide_eq_true_eq, Option.map_eq_some_iff, Prod.mk.injEq] at hf
  obtain ⟨⟨⟨⟨k, ev, rs⟩, hd, rfl, rfl⟩, ⟨s, hs, hc, hend, hp⟩⟩, hstop⟩ := hf
  exact ⟨D, s, fdeWrite, rs, hD, hd, by decide, hs, hc, hend, hp, error_of_stopOf hstop⟩

/-- All sockets are paired, and none is a client of the smart socket. -/
def allPaired (D : Daemon) : Bool :=
  (List.range D.nextAddr).all fun a =>
    (D.sockets a).all fun s : Asocket => s.peer.isSome && s.ops ≠ .smart

lemma not_strands_of_allPaired (h : Wf { d := D }) (hall : allPaired D = true) :
    ¬Strands e D := by
  have hpaired : ∀ a s, D.sockets a = some s → s.peer.isSome ∧ s.ops ≠ .smart := by
    intro a s hs
    have ha := List.all_eq_true.mp hall a (List.mem_range.mpr (h.peers.fresh a s hs))
    rw [hs] at ha
    simpa using ha
  intro hstrands
  rcases hstrands with ⟨t, p, a, s, hreach, hcmd, hs, hfd, hp, hq⟩ | ⟨a, h⟩
  · have hsome := (hpaired a s hs).1
    rw [hp] at hsome
    cases hsome
  · obtain ⟨ev, rs, s, ss, q, -, -, -, -, -, -, hq, hk, -⟩ := h
    exact (hpaired ss q hq).2 hk

/-- The host's data for a shell are queued until the shell can take them. -/
def queued : List Event :=
  openShell ++ carry 0 11 (packetOf aWrte 7 1 (str "hi")) { writes := [.again] } ++
    [⟨.epollWait [(13, ⟨false, true, false⟩)], {}⟩]

/-- The theorem for a shell that takes the data it was sent. -/
theorem writes_paired_shell : ∃ (D : Daemon) (s : Asocket), D.sockets 0 = some s ∧ s.pkts ≠ [] ∧
    s.peer ≠ none := by
  obtain ⟨D, hD, hf⟩ := @exists_reachableBy (fun e D => ¬Strands e D)
    (Option (FdeId × BitVec 16) × Option (Bool × Bool)) unlocked [3, 4, 6, 7, 8, 9]
    (fun _ => false) queued (fun _ D => allPaired D)
    (fun D => ((D.delivered drainAll).map fun x => (x.1, x.2.1),
      (D.sockets 0).map fun s => (s.closing, s.pkts.isEmpty)))
    (some (.socket 0, fdeWrite), some (false, false))
    (fun _ _ hwf hall => not_strands_of_allPaired hwf hall) (by decide +kernel)
  simp only [Prod.mk.injEq, Option.map_eq_some_iff] at hf
  obtain ⟨⟨⟨k, ev, rs⟩, hd, rfl, rfl⟩, ⟨s, hs, hc, hq⟩⟩ := hf
  refine ⟨D, s, hs, ?_, writes_paired hD hd (by decide) hs hc⟩
  rw [← List.isEmpty_eq_false_iff]
  exact hq

end Main

end Adbd.DrainPeers
