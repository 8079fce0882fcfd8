import Adbd.Properties.SocketIds
import Adbd.Properties.ServiceBytes

/-!
# Flow control towards the host

A service may send one `A_WRTE` when its stream is made, and one more for each `A_OKAY` that comes
in for its local id.  Nothing counts them: what a service may send is kept as the subscription of
its descriptor to `FDE_READ`, which is cleared when a packet is sent and set by `ready`; for the two
JDWP services it is the flags `pass` and `need_update`, which are used up once.

Two things give a stream more.  The exit of a shell makes the socket read without a subscription.
And an `A_OKAY` names a local id, so two sockets with one id share what it grants.
-/

namespace Adbd.FlowControl

open Function FlagWord Relation Transition Daemon History PeerLinks

/-! ## Who subscribes to reading -/

section Loop

variable {L L' : Loop FdeId} {a : Addr} {k : FdeId} {n : ℕ} {ev : BitVec 16} {rep : EpollMask}

/-- The descriptor of the socket is subscribed to `FDE_READ`. -/
def Reads (L : Loop FdeId) (a : Addr) : Prop := has (L.mem (.socket a)).state fdeRead = true

instance (L : Loop FdeId) (a : Addr) : Decidable (Reads L a) :=
  inferInstanceAs (Decidable (_ = true))

lemma reads_of_mem (hmem : L'.mem (.socket a) = L.mem (.socket a)) (h : Reads L' a) :
    Reads L a := by
  rw [Reads, hmem] at h
  exact h

lemma reads_of_set (hset : Loop.SetSpec k ev L L')
    (hev : k = .socket a → has ev fdeRead = true → Reads L a) (h : Reads L' a) : Reads L a := by
  by_cases hk : k = .socket a
  · refine hev hk ?_
    rw [Reads, ← hk, has_congr hset.low (by decide)] at h
    exact h
  · exact reads_of_mem (hset.mem_other _ (Ne.symm hk)) h

lemma not_reads_of_set (hset : Loop.SetSpec (.socket a) ev L L') (hev : has ev fdeRead = false) :
    ¬Reads L' a := by
  intro h
  rw [Reads, has_congr hset.low (by decide), hev] at h
  cases h

lemma reads_of_remove (hrem : Loop.RemoveSpec k L L') (h : Reads L' a) : Reads L a := by
  by_cases hk : k = .socket a
  · subst hk
    rw [Reads, hrem.mem_self, show (({} : Fdevent).state) = 0#16 from rfl, has_zero_left] at h
    cases h
  · exact reads_of_mem (hrem.mem_other _ (Ne.symm hk)) h

lemma reads_of_setMem {f : Fdevent} (h : Reads (L.setMem k f) a)
    (hf : has f.state fdeRead = has (L.mem k).state fdeRead) : Reads L a := by
  by_cases hk : k = .socket a
  · subst hk
    rw [Reads, Loop.setMem_mem_self, hf] at h
    exact h
  · exact reads_of_mem (Loop.setMem_mem_of_ne (Ne.symm hk) ..) h

lemma reads_of_install (hins : L.fdeventInstall k n = .ok L') (h : Reads L' a) : Reads L a := by
  obtain ⟨T, M, rfl, -⟩ := Loop.fdeventInstall_ok hins
  by_cases hk : k = .socket a
  · subst hk
    have hactive : has fdeActive fdeRead = false := by decide
    rw [Reads, Loop.setMem_mem_self, hactive] at h
    cases h
  · exact reads_of_mem (Loop.setMem_mem_of_ne (Ne.symm hk) ..) h

/-- An event is pending or not: that is no subscription. -/
lemma reads_of_report (h : Reads (L.fdeventReport k rep) a) : Reads L a := by
  have hread : has fdePending fdeRead = false := by decide
  unfold Loop.fdeventReport at h
  simp only at h
  split at h
  · exact reads_of_setMem h rfl
  split at h
  · exact reads_of_setMem h rfl
  · refine reads_of_setMem (reads_of_setMem (reads_of_mem rfl h) ?_) rfl
    rw [Loop.setMem_mem_self, has_or, hread, Bool.or_false]

lemma reads_of_dispatch (hd : L.fdeventPlistDequeue = some (k, L'))
    (h : Reads (L'.fdeventCallFdfunc k).2 a) : Reads L a := by
  obtain ⟨rest, hlist, rfl⟩ := Loop.fdeventPlistDequeue_eq hd
  refine @reads_of_mem L { L with listPending := rest } a rfl ?_
  unfold Loop.fdeventCallFdfunc at h
  simp only at h
  split at h
  · exact reads_of_setMem h (has_and_not_of_disjoint (by decide))
  · exact reads_of_setMem h rfl

end Loop

section Changes

variable {e : Event} {D₀ D : Daemon} {m m' : Moment} {a b : Addr}

/-- A socket is subscribed to reading for a smart socket, or in exchange for a credit. -/
theorem reads_effect (he : Effect e D₀ m m') (ha : a ≠ m.d.nextAddr) (h : Reads m'.d.loop a) :
    Reads m.d.loop a ∨
      (∃ s r q, m.d.sockets a = some s ∧ s.peer = some r ∧ m.d.sockets r = some q ∧
        q.ops = .smart) ∨
      ∃ s, m.d.sockets a = some s ∧ s.peer ≠ none ∧ m.credit = some s.id ∧ m'.credit = none := by
  have hnew : Reads (m.d.loop.setMem (.socket m.d.nextAddr) {}) a → Reads m.d.loop a :=
    reads_of_mem (Loop.setMem_mem_of_ne (fun heq => ha (FdeId.socket.inj heq)) ..)
  have hset : ∀ {b : Addr} {ev : BitVec 16} {L : Loop FdeId},
      Loop.SetSpec (.socket b) ev m.d.loop L → has ev fdeRead = false → Reads L a →
      Reads m.d.loop a := by
    intro b ev L hset hread
    exact reads_of_set hset fun _ hno => absurd hno (by rw [hread]; decide)
  have hkept : ∀ {b : Addr} {ev : BitVec 16} {L : Loop FdeId},
      Loop.SetSpec (.socket b) ev m.d.loop L →
      has ev fdeRead = has (m.d.loop.mem (.socket b)).state fdeRead → Reads L a →
      Reads m.d.loop a := by
    intro b ev L hset hread
    refine reads_of_set hset fun hb hyes => ?_
    rw [Reads, ← hb, ← hread]
    exact hyes
  cases he
  case uninstall b L hb hX hrem => exact .inl (reads_of_remove hrem h)
  case retire b s i ev L hb hX hops hp hc hq hin hs hev hread => exact .inl (hset hs hread h)
  case createFd n L hfirst hown hins => exact .inl (hnew (reads_of_install hins h))
  case createJdwp => exact .inl (hnew h)
  case createTracker => exact .inl (hnew h)
  case accept => exact .inl (hnew h)
  case pair => exact .inl (hnew h)
  case await b s ev L hb hX hops hp hc hl hin hs hev hread hevents hwrite hlate =>
    exact .inl (hset hs hread h)
  case enqueueLink b s p out ev L hX hb hops hc hout hin hs hev hread hcause hblock =>
    exact .inl (hkept hs hread h)
  case flushed b s ev L hX hb hops hc hin hs hev hread hwrite hevents howed hcause hbef =>
    exact .inl (hkept hs hread h)
  case subscribe b s ev L hb hops hin hs hev hread hsmart hwrite =>
    by_cases hab : a = b
    · subst hab
      obtain ⟨r, q, hp, hq, hkind⟩ := hsmart
      exact .inr (.inl ⟨s, r, q, hb, hp, hq, hkind⟩)
    · exact .inl (reads_of_set hs (fun heq _ => absurd (FdeId.socket.inj heq).symm hab) h)
  case grant b s ev L hb hops hin hs hev hread hwrite hp hcredit =>
    by_cases hab : a = b
    · subst hab
      exact .inr (.inr ⟨s, hb, hp, hcredit, rfl⟩)
    · exact .inl (reads_of_set hs (fun heq _ => absurd (FdeId.socket.inj heq).symm hab) h)
  case wrteRead b r s q p t x ev L hX hb hops hp hto hin hs hev hread hwrite hevents hsub hby _ =>
    exact .inl (hset hs hread h)
  case report n ev mask k hn hrep => exact .inl (reads_of_report h)
  case dispatch k L hd => exact .inl (reads_of_dispatch hd h)
  case force n k ev hk hev => exact .inl (reads_of_setMem h rfl)
  case rearm L ev hs => exact .inl (reads_of_set hs (fun heq => by cases heq) h)
  case confirm t n p L M hp hcmd hn hfwd hhist hL hM =>
    have hs := Loop.fdeventSet_spec hM
    exact .inl (reads_of_install hL (reads_of_set hs (fun heq => by cases heq) h))
  case authDropped t L hrem => exact .inl (reads_of_remove (Loop.fdeventRemove_spec hrem) h)
  case start t x rest n k L M hreg hx hn hk hnk hL hM =>
    have hs := Loop.fdeventSet_spec hM
    have hL' := reads_of_install hL (reads_of_set hs (fun heq => by cases heq) h)
    exact .inl (reads_of_mem rfl hL')
  case unplug t x rest L hreg hx hrem hsame hL own own' =>
    exact .inl (reads_of_remove (Loop.fdeventRemove_spec hL) (reads_of_mem rfl h))
  case output t x y L R os n hidle hx hact hstep =>
    exact .inl (hstep.closes (P := fun L => Reads L a → Reads m.d.loop a)
      (fun _ _ hL hc => hL (reads_of_mem rfl hc)) id h)
  case input t x y L R os n hidle hx hstart hstep =>
    exact .inl (hstep.closes (P := fun L => Reads L a → Reads m.d.loop a)
      (fun _ _ hL hc => hL (reads_of_mem rfl hc)) id h)
  case closed n hn => exact .inl (reads_of_mem rfl h)
  all_goals exact .inl (reads_of_mem rfl h)

/-! ## The ids of the sockets -/

/-- The listed sockets have different ids. -/
def Distinct (m : Moment) : Prop :=
  ∀ a ∈ m.d.localSocketList, ∀ b ∈ m.d.localSocketList, ∀ s q,
    m.d.sockets a = some s → m.d.sockets b = some q → s.id = q.id → a = b

lemma nextId_cases (he : Effect e D₀ m m') : m'.d.localSocketNextId = m.d.localSocketNextId ∨
    m.d.localSocketNextId = D₀.localSocketNextId ∧
      m'.d.localSocketNextId = m.d.localSocketNextId + 1 := by
  cases he
  case createFd n L hfirst hown hins => exact .inr ⟨hfirst, rfl⟩
  case createJdwp hfirst => exact .inr ⟨hfirst, rfl⟩
  case createTracker hfirst => exact .inr ⟨hfirst, rfl⟩
  all_goals exact .inl rfl

/-- The id a step gives out is the last it gives out. -/
lemma nextId_of_path (hpath : ReflTransGen (Effect e D₀) m m')
    (h : m.d.localSocketNextId ≠ D₀.localSocketNextId) :
    m'.d.localSocketNextId = m.d.localSocketNextId := by
  induction hpath with
  | refl => rfl
  | tail _ he ih =>
    rcases nextId_cases he with heq | ⟨hfirst, -⟩
    · exact heq.trans ih
    · exact absurd (ih.symm.trans hfirst) h

lemma nextId_moves (i : UInt32) : i + 1 ≠ i := by
  intro hi
  simp at hi

/-- A socket that has just been listed is the first the step creates. -/
lemma created_first (he : Effect e D₀ m m') (hwf : Wf m)
    (h : m.d.nextAddr ∈ m'.d.localSocketList) :
    m.d.localSocketNextId = D₀.localSocketNextId ∧
      m'.d.localSocketNextId = m.d.localSocketNextId + 1 := by
  have hno : m.d.nextAddr ∉ m.d.localSocketList := by
    intro hmem
    obtain ⟨s, hs, -⟩ := hwf.peers.listed _ hmem
    exact absurd (hwf.peers.fresh _ s hs) (Nat.lt_irrefl _)
  cases he
  case createFd n L hfirst hown hins => exact ⟨hfirst, rfl⟩
  case createJdwp hfirst => exact ⟨hfirst, rfl⟩
  case createTracker hfirst => exact ⟨hfirst, rfl⟩
  case unname => exact absurd (List.mem_of_mem_erase h) hno
  case retire => exact absurd (List.mem_of_mem_erase h) hno
  all_goals exact absurd h hno

/-- Until a step creates a socket, the sockets listed were listed when it began. -/
lemma listed_of_path (hpath : ReflTransGen (Effect e D) { d := D } m) (hwf : Wf { d := D })
    (hid : m.d.localSocketNextId = D.localSocketNextId) {s : Asocket}
    (ha : a ∈ m.d.localSocketList) (hs : m.d.sockets a = some s) :
    a ∈ D.localSocketList ∧ ∃ z, D.sockets a = some z ∧ s.id = z.id := by
  induction hpath generalizing s with
  | refl => exact ⟨ha, s, hs, rfl⟩
  | @tail m m' hpath he ih =>
    have hwf' := wf_of_path hpath hwf
    have hsame : m.d.localSocketNextId = D.localSocketNextId := by
      rcases nextId_cases he with heq | ⟨hfirst, -⟩
      · rw [← heq, hid]
      · exact hfirst
    rcases StreamIds.listed_cases he hwf' ha hs with ⟨ha', z, hz, heq⟩ | ⟨rfl, -⟩
    · obtain ⟨haD, y, hy, hzy⟩ := ih hsame ha' hz
      exact ⟨haD, y, hy, heq.trans hzy⟩
    · obtain ⟨hfirst, hnext⟩ := created_first he hwf' ha
      rw [hnext, hfirst] at hid
      exact absurd hid (nextId_moves _)

/-- If an id that has been given out was free, the ids stay different. -/
theorem distinct_effect (he : Effect e D m m') (hwf₀ : Wf { d := D })
    (hpath : ReflTransGen (Effect e D) { d := D } m)
    (hfree : m'.d.localSocketNextId ≠ D.localSocketNextId → SocketIds.NextIdFree D)
    (h : Distinct m) : Distinct m' := by
  have hwf := wf_of_path hpath hwf₀
  -- a socket listed before has another id than the new one
  have hold : ∀ b q, m.d.nextAddr ∈ m'.d.localSocketList → b ∈ m.d.localSocketList →
      m.d.sockets b = some q → q.id ≠ D.localSocketNextId := by
    intro b q hnew hb hq
    obtain ⟨hfirst, hnext⟩ := created_first he hwf hnew
    obtain ⟨hbD, z, hz, heq⟩ := listed_of_path hpath hwf₀ hfirst hb hq
    have hgiven : m'.d.localSocketNextId ≠ D.localSocketNextId := by
      rw [hnext, hfirst]
      exact nextId_moves _
    rw [heq]
    exact (hfree hgiven).2 b hbD z hz
  intro a ha b hb s q hs hq hid
  rcases StreamIds.listed_cases he hwf ha hs with ⟨ha', s', hs', hids⟩ | ⟨haN, hids⟩
  · rcases StreamIds.listed_cases he hwf hb hq with ⟨hb', q', hq', hidq⟩ | ⟨hbN, hidq⟩
    · exact h a ha' b hb' s' q' hs' hq' (by rw [← hids, ← hidq, hid])
    · refine absurd ?_ (hold a s' (hbN ▸ hb) ha' hs')
      rw [← hids, hid, hidq]
  · rcases StreamIds.listed_cases he hwf hb hq with ⟨hb', q', hq', hidq⟩ | ⟨hbN, hidq⟩
    · refine absurd ?_ (hold b q' (haN ▸ ha) hb' hq')
      rw [← hidq, ← hid, hids]
    · rw [haN, hbN]

end Changes

/-! ## Sockets that wait for a stream -/

section Quiet

variable {e : Event} {D₀ D : Daemon} {m m' : Moment} {a : Addr}

/-- A socket with a descriptor and no peer, which is not being closed. -/
def Idle (m : Moment) (a : Addr) : Prop :=
  a ∉ m.orphans ∧ ∃ s, m.d.sockets a = some s ∧ s.ops.isFd = true ∧ s.peer = none ∧
    s.closing = false

/-- Such a socket does not subscribe to reading. -/
def Quiet (m : Moment) : Prop := ∀ a, Idle m a → ¬Reads m.d.loop a

lemma idle_of_eq (h : Idle m' a) (hsock : m'.d.sockets = m.d.sockets)
    (horph : m.orphans ⊆ m'.orphans) : Idle m a := by
  obtain ⟨ha, s, hs, hrest⟩ := h
  exact ⟨fun hno => ha (horph hno), s, hsock ▸ hs, hrest⟩

lemma idle_of_assign {b : Addr} {z z' : Asocket} (h : Idle m' a) (hz : m.d.sockets b = some z)
    (hsock : m'.d.sockets = update m.d.sockets b (some z')) (horph : m.orphans ⊆ m'.orphans)
    (hfd : z'.ops.isFd = z.ops.isFd) (hclosing : z'.closing = z.closing)
    (hp : z'.peer = z.peer ∨ b ∈ m.orphans) : Idle m a := by
  obtain ⟨ha, s, hs, hops, hpeer, hc⟩ := h
  have ha' : a ∉ m.orphans := fun hno => ha (horph hno)
  rw [hsock] at hs
  by_cases hab : a = b
  · subst hab
    rw [update_self, Option.some.injEq] at hs
    subst hs
    exact ⟨ha', z, hz, hfd ▸ hops, (hp.resolve_right ha').symm.trans hpeer, hclosing ▸ hc⟩
  · rw [update_of_ne hab] at hs
    exact ⟨ha', s, hs, hops, hpeer, hc⟩

lemma idle_of_free {b : Addr} (h : Idle m' a)
    (hsock : m'.d.sockets = update m.d.sockets b none)
    (horph : m'.orphans = m.orphans \ {b}) : Idle m a := by
  obtain ⟨ha, s, hs, hrest⟩ := h
  rw [hsock] at hs
  by_cases hab : a = b
  · rw [hab, update_self] at hs
    cases hs
  · rw [update_of_ne hab] at hs
    rw [horph] at ha
    exact ⟨fun hno => ha ⟨hno, hab⟩, s, hs, hrest⟩

lemma idle_of_create {z : Asocket} (h : Idle m' a)
    (hsock : m'.d.sockets = update m.d.sockets m.d.nextAddr (some z))
    (horph : m'.orphans = insert m.d.nextAddr m.orphans) : Idle m a := by
  obtain ⟨ha, s, hs, hrest⟩ := h
  rw [horph, Set.mem_insert_iff, not_or] at ha
  rw [hsock, update_of_ne ha.1] at hs
  exact ⟨ha.2, s, hs, hrest⟩

lemma idle_of_pair {b : Addr} {z z' : Asocket} (h : Idle m' a) (hz' : z'.peer ≠ none)
    (hz : z.ops.isFd = false)
    (hsock : m'.d.sockets = update (update m.d.sockets m.d.nextAddr (some z)) b (some z'))
    (horph : m'.orphans = m.orphans \ {b}) : Idle m a := by
  obtain ⟨ha, s, hs, hops, hpeer, hc⟩ := h
  rw [hsock] at hs
  by_cases hab : a = b
  · rw [hab, update_self, Option.some.injEq] at hs
    exact absurd (hs ▸ hpeer) hz'
  · rw [update_of_ne hab] at hs
    by_cases haN : a = m.d.nextAddr
    · rw [haN, update_self, Option.some.injEq] at hs
      rw [← hs, hz] at hops
      cases hops
    · rw [update_of_ne haN] at hs
      rw [horph] at ha
      exact ⟨fun hno => ha ⟨hno, hab⟩, s, hs, hops, hpeer, hc⟩

/-- A socket that waits has waited before, or has just stopped reading. -/
lemma idle_cases (he : Effect e D₀ m m') (h : Idle m' a) : Idle m a ∨ ¬Reads m'.d.loop a := by
  cases he
  case sever b p s hs hp hb =>
    refine .inl (idle_of_eq h rfl ?_)
    exact fun c hc => Set.mem_insert_of_mem _ (Set.mem_insert_of_mem _ hc)
  case single b s hs hp => exact .inl (idle_of_eq h rfl (Set.subset_insert ..))
  case unpeer b s hs hb => exact .inl (idle_of_assign h hs rfl subset_rfl rfl rfl (.inr hb))
  case unname b s hs hl hb => exact .inl (idle_of_assign h hs rfl subset_rfl rfl rfl (.inl rfl))
  case free => exact .inl (idle_of_free h rfl rfl)
  case freeTracker => exact .inl (idle_of_free h rfl rfl)
  case dropRemote => exact .inl (idle_of_free h rfl rfl)
  case retire b s i ev L hs hb hops hp hc hq hin hset hev hread =>
    obtain ⟨ha, z, hz, hfd, hpeer, hclosing⟩ := h
    by_cases hab : a = b
    · subst hab
      cases eq_of_assign hz rfl
      cases hclosing
    · refine .inl ⟨fun hno => ha ⟨hno, hab⟩, z, ?_, hfd, hpeer, hclosing⟩
      exact (update_of_ne hab ..).symm.trans hz
  case createFd => exact .inl (idle_of_create h rfl rfl)
  case createJdwp => exact .inl (idle_of_create h rfl rfl)
  case createTracker => exact .inl (idle_of_create h rfl rfl)
  case accept => exact .inl (idle_of_pair h (Option.some_ne_none _) rfl rfl rfl)
  case pair => exact .inl (idle_of_pair h (Option.some_ne_none _) rfl rfl rfl)
  case handOver b s t hs hb hops hc hl hin =>
    exact .inl (idle_of_assign h hs rfl subset_rfl (by rw [hops]; rfl) rfl (.inr hb))
  case await b s ev L hs hb hops hp hc hl hin hset hev hread hevents hwrite hlate =>
    by_cases hab : a = b
    · subst hab
      exact .inr (not_reads_of_set hset hread)
    · obtain ⟨ha, hrest⟩ := h
      exact .inl ⟨fun hno => ha ⟨hno, hab⟩, hrest⟩
  case answered b s hs hops =>
    exact .inl (idle_of_assign h hs rfl subset_rfl (by rw [hops]; rfl) rfl (.inl rfl))
  case exits b s hs => exact .inl (idle_of_assign h hs rfl subset_rfl rfl rfl (.inl rfl))
  case gather b s ps hs hops hc =>
    exact .inl (idle_of_assign h hs rfl subset_rfl rfl rfl (.inl rfl))
  case enqueueLink b s p out ev L hX hs hops hc hout hin hset hev hread hcause hblock =>
    exact .inl (idle_of_assign h hs rfl subset_rfl rfl rfl (.inl rfl))
  case drained b s ps out hX hs hops hbytes hlen hstuck hleft =>
    exact .inl (idle_of_assign h hs rfl subset_rfl rfl rfl (.inl rfl))
  case flushed b s ev L hX hs hops hc hin hset hev hread hwrite hevents howed hcause hbef =>
    exact .inl (idle_of_assign h hs rfl subset_rfl rfl rfl (.inl rfl))
  case wrteJdwp b r s q p t x hX hs hops hp hto hpass =>
    exact .inl (idle_of_assign h hs rfl subset_rfl rfl rfl (.inl rfl))
  case wrteTracker b r s q p t x hX hs hops hp hto hneed =>
    exact .inl (idle_of_assign h hs rfl subset_rfl rfl rfl (.inl rfl))
  all_goals exact .inl (idle_of_eq h rfl subset_rfl)

/-- A socket that waits for a stream never reads. -/
theorem quiet_effect (he : Effect e D₀ m m') (hwf : Wf m) (h : Quiet m) : Quiet m' := by
  intro a ha hreads
  obtain hbefore | hno := idle_cases he ha
  · have hlive := hbefore
    obtain ⟨-, s, hs, -, hp, -⟩ := hlive
    have hne : a ≠ m.d.nextAddr := Nat.ne_of_lt (hwf.peers.fresh a s hs)
    rcases reads_effect he hne hreads with hold | ⟨z, r, q, hz, hpz, -⟩ | ⟨z, hz, hpz, -⟩
    · exact h a hbefore hold
    · cases hs.symm.trans hz
      cases hp.symm.trans hpz
    · cases hs.symm.trans hz
      exact hpz hp
  · exact hno hreads

end Quiet

/-! ## The history of a stream -/

/-- An `A_WRTE` is sent on behalf of the remote socket. -/
def isWrte (r : Addr) : Obs → Bool
  | .sent _ via p => via = some r && p.msg.command = aWrte
  | _ => false

def writes (r : Addr) (os : List Obs) : ℕ := os.countP (isWrte r)

/-- The `A_OKAY`s for the id `l` that have come in since the remote socket was paired. -/
def grants (r : Addr) (l : UInt32) : List Obs → ℕ
  | [] => 0
  | .stream r' _ _ _ _ :: os => if r' = r then 0 else grants r l os
  | .received _ p :: os =>
    if p.msg.command = aOkay ∧ p.msg.arg1 = l then grants r l os + 1 else grants r l os
  | _ :: os => grants r l os

/-- An `A_WRTE` is sent when all that were sent before it, the first aside, have been paid for. -/
def Paid (r : Addr) (l : UInt32) (o : Obs) (os : List Obs) : Prop :=
  isWrte r o = true → writes r os ≤ grants r l os

section History

variable {r : Addr} {l : UInt32} {t : TAddr} {o : Obs} {p : Apacket} {os tr tr' : List Obs}

/-- Observations that neither use nor grant what the stream may send. -/
def Silent (r : Addr) (l : UInt32) : Obs → Prop
  | .sent _ via p => via = some r → p.msg.command ≠ aWrte
  | .received _ p => p.msg.command = aOkay → p.msg.arg1 ≠ l
  | .stream r' _ _ _ _ => r' ≠ r
  | _ => True

/-- The history of a stream after such observations. -/
structure Same (r : Addr) (l : UInt32) (tr tr' : List Obs) : Prop where
  writes : writes r tr' = writes r tr
  grants : grants r l tr' = grants r l tr
  paid : Always (Paid r l) tr → Always (Paid r l) tr'

lemma same_refl : Same r l tr tr := ⟨rfl, rfl, id⟩

lemma Same.trans {tr'' : List Obs} (h : Same r l tr tr') (h' : Same r l tr' tr'') :
    Same r l tr tr'' :=
  ⟨h'.writes.trans h.writes, h'.grants.trans h.grants, fun hp => h'.paid (h.paid hp)⟩

lemma writes_cons : writes r (o :: tr) = writes r tr + (if isWrte r o then 1 else 0) :=
  List.countP_cons ..

lemma isWrte_of_silent (ho : Silent r l o) : isWrte r o = false := by
  cases o with
  | sent t via p =>
    have hvia : ¬(via = some r ∧ p.msg.command = aWrte) := fun hno => ho hno.1 hno.2
    simpa [isWrte] using hvia
  | _ => rfl

lemma same_cons (ho : Silent r l o) : Same r l tr (o :: tr) := by
  have hwrte := isWrte_of_silent ho
  refine ⟨?_, ?_, fun h => always_cons.mpr ⟨fun hno => ?_, h⟩⟩
  · rw [writes_cons, hwrte]
    rfl
  · cases o with
    | stream r' b i j t => exact if_neg ho
    | received t p => exact if_neg fun hno => ho hno.1 hno.2
    | _ => rfl
  · rw [hwrte] at hno
    cases hno

lemma same_append (h : ∀ o ∈ os, Silent r l o) : Same r l tr (os ++ tr) := by
  induction os with
  | nil => exact same_refl
  | cons o os ih =>
    have hos := ih fun x hx => h x (List.mem_cons_of_mem _ hx)
    exact hos.trans (same_cons (h o List.mem_cons_self))

lemma silent_of_thread (h : o.ofThread t) : Silent r l o := by
  cases o <;> trivial

end History

/-! ## What a stream may still send -/

section Credit

variable {e : Event} {D₀ D : Daemon} {m m' : Moment} {a r : Addr} {l : UInt32} {s s' q : Asocket}

/-- What the flags of a JDWP service leave it. -/
def spare (s : Asocket) : ℕ :=
  match s.ops with
  | .jdwp => if s.pass then 0 else 1
  | .tracker => if s.needUpdate then 1 else 0
  | _ => 0

/-- How many packets the socket at `a` may send without another `A_OKAY`. -/
def tokens (m : Moment) (a : Addr) (s : Asocket) : ℕ :=
  spare s + if s.ops.isFd = true then
    (if Reads m.d.loop a then 1 else 0) + (if m.credit = some s.id then 1 else 0) else 0

lemma spare_of_isFd (h : s.ops.isFd = true) : spare s = 0 := by
  cases hops : s.ops <;> simp_all [spare, SocketOps.isFd]

lemma tokens_of_isFd (h : s.ops.isFd = true) : tokens m a s =
    (if Reads m.d.loop a then 1 else 0) + (if m.credit = some s.id then 1 else 0) := by
  rw [tokens, spare_of_isFd h, if_pos h, Nat.zero_add]

lemma tokens_of_not_isFd (h : s.ops.isFd = false) : tokens m a s = spare s := by
  rw [tokens, if_neg (by rw [h]; decide), Nat.add_zero]

lemma spare_le_one (s : Asocket) : spare s ≤ 1 := by
  rw [spare]
  split
  · split_ifs <;> omega
  · split_ifs <;> omega
  · exact Nat.zero_le 1

lemma tokens_le_one (h : s.ops.isFd = true → ¬Reads m.d.loop a) : tokens m a s ≤ 1 := by
  cases hfd : s.ops.isFd with
  | true =>
    rw [tokens_of_isFd hfd, if_neg (h hfd), Nat.zero_add]
    split_ifs <;> omega
  | false =>
    rw [tokens_of_not_isFd hfd]
    exact spare_le_one s

/-- Nothing but a credit is exchanged for a subscription. -/
lemma tokens_le (he : Effect e D₀ m m') (hwf : Wf m) (hopen : Open a r m)
    (hs : m.d.sockets a = some s) (hs' : m'.d.sockets a = some s') (hid : s'.id = s.id)
    (hspare : spare s' = spare s)
    (hcredit : m'.credit = some s.id → m.credit = some s.id) : tokens m' a s' ≤ tokens m a s := by
  have hlt := hwf.peers.fresh a s hs
  have hfd : s'.ops.isFd = s.ops.isFd := by
    obtain ⟨z, hz, hold⟩ := he.ages hwf a s' hlt hs'
    cases hs.symm.trans hz
    exact hold.isFd
  rw [tokens, tokens, hspare, hfd, hid]
  split
  case isFalse => exact le_rfl
  by_cases hreads : Reads m'.d.loop a
  case neg =>
    rw [if_neg hreads, Nat.zero_add]
    split
    case isTrue hno =>
      rw [if_pos (hcredit hno)]
      omega
    case isFalse => omega
  rcases reads_effect he (Nat.ne_of_lt hlt) hreads with hold | ⟨z, r', q, hz, hp, hq, hkind⟩ |
      ⟨z, hz, -, hgrant, hused⟩
  · rw [if_pos hreads, if_pos hold]
    split
    case isTrue hno => rw [if_pos (hcredit hno)]
    case isFalse => omega
  · -- the other end is remote
    obtain ⟨-, z', hz', hp'⟩ := hopen.local_ hwf
    obtain ⟨-, q', hq', hrem, -⟩ := hopen
    cases hz.symm.trans hz'
    cases hp.symm.trans hp'
    cases hq.symm.trans hq'
    cases hkind.symm.trans hrem
  · cases hs.symm.trans hz
    rw [if_pos hreads, hused, if_neg (Option.some_ne_none _).symm, if_pos hgrant]
    omega

/-- What the stream of `r` and `a` has sent and may still send is covered by the `A_OKAY`s for
its local id. -/
structure Credit (a r : Addr) (l : UInt32) (m : Moment) : Prop where
  ends : Ends a r m
  bound : writes r m.d.trace ≤ 1 + grants r l m.d.trace
  covered : Open a r m → ∀ s, m.d.sockets a = some s →
    s.id = l ∧ writes r m.d.trace + tokens m a s ≤ 1 + grants r l m.d.trace
  paid : Always (Paid r l) m.d.trace

/-- A change that sends nothing of the stream and grants nothing. -/
lemma Credit.keep (h : Credit a r l m) (he : Effect e D₀ m m') (hwf : Wf m)
    (hsame : Same r l m.d.trace m'.d.trace)
    (hshare : ∀ s s', Open a r m → m.d.sockets a = some s → m'.d.sockets a = some s' →
      s'.id = s.id ∧ spare s' = spare s ∧ (m'.credit = some s.id → m.credit = some s.id)) :
    Credit a r l m' := by
  refine ⟨h.ends.after he hwf (StreamIds.nextAddr_le he), ?_, fun hopen s' hs' => ?_,
    hsame.paid h.paid⟩
  · rw [hsame.writes, hsame.grants]
    exact h.bound
  · obtain ⟨s, hs, -⟩ := he.ages hwf a s' h.ends.near hs'
    have hbefore := hopen.before he hwf h.ends.far
    obtain ⟨hid, hcovered⟩ := h.covered hbefore s hs
    obtain ⟨hid', hspare, hcredit⟩ := hshare s s' hbefore hs hs'
    have hle := tokens_le he hwf hbefore hs hs' hid' hspare hcredit
    rw [hsame.writes, hsame.grants]
    exact ⟨hid'.trans hid, by omega⟩

/-- The stream sends an `A_WRTE`, and uses up what allowed it. -/
lemma Credit.spend (h : Credit a r l m) (he : Effect e D₀ m m') (hwf : Wf m) {t : TAddr}
    {p : Apacket} {tr : List Obs} (htrace : m'.d.trace = .sent t (some r) p :: tr)
    (hcmd : p.msg.command = aWrte) (hsame : Same r l m.d.trace tr) (hopen : Open a r m)
    (hs : m.d.sockets a = some s) (hone : 1 ≤ tokens m a s)
    (hspend : ∀ s', m'.d.sockets a = some s' →
      s'.id = s.id ∧ tokens m' a s' + 1 ≤ tokens m a s) :
    Credit a r l m' := by
  obtain ⟨hid, hcovered⟩ := h.covered hopen s hs
  have hwrte : isWrte r (.sent t (some r) p) = true := by simp [isWrte, hcmd]
  have hwrites : writes r m'.d.trace = writes r m.d.trace + 1 := by
    rw [htrace, writes_cons, if_pos hwrte, hsame.writes]
  have hgrants : grants r l m'.d.trace = grants r l m.d.trace := by
    rw [htrace]
    exact hsame.grants
  refine ⟨h.ends.after he hwf (StreamIds.nextAddr_le he), ?_, fun _ s' hs' => ?_, ?_⟩
  · rw [hwrites, hgrants]
    omega
  · obtain ⟨hid', hle⟩ := hspend s' hs'
    rw [hwrites, hgrants]
    exact ⟨hid'.trans hid, by omega⟩
  · rw [htrace, always_cons]
    refine ⟨fun _ => ?_, hsame.paid h.paid⟩
    rw [hsame.writes, hsame.grants]
    omega

/-- An `A_OKAY` for the id of the stream comes in. -/
lemma Credit.receive (h : Credit a r l m) (he : Effect e D₀ m m') (hwf : Wf m) {t : TAddr}
    {p : Apacket} (htrace : m'.d.trace = .received t p :: m.d.trace)
    (hp : p.msg.command = aOkay ∧ p.msg.arg1 = l) (hsock : m'.d.sockets = m.d.sockets)
    (hloop : m'.d.loop = m.d.loop) : Credit a r l m' := by
  have hwrites : writes r m'.d.trace = writes r m.d.trace := by
    rw [htrace]
    rfl
  have hgrants : grants r l m'.d.trace = grants r l m.d.trace + 1 := by
    rw [htrace]
    exact if_pos hp
  refine ⟨h.ends.after he hwf (StreamIds.nextAddr_le he), ?_, fun hopen s hs => ?_, ?_⟩
  · rw [hwrites, hgrants]
    exact h.bound.trans (Nat.le_succ _)
  · rw [hsock] at hs
    obtain ⟨hid, hcovered⟩ := h.covered (hopen.before he hwf h.ends.far) s hs
    have hle : tokens m' a s ≤ tokens m a s + 1 := by
      rw [tokens, tokens, hloop]
      split_ifs <;> omega
    rw [hwrites, hgrants]
    exact ⟨hid, by omega⟩
  · rw [htrace, always_cons]
    exact ⟨Bool.noConfusion, h.paid⟩

/-- Every change keeps what the stream sends within what it was granted. -/
theorem credit_effect (he : Effect e D₀ m m') (hwf : Wf m) (hdistinct : Distinct m)
    (hforce : ¬ForcesRead e D₀ a) (h : Credit a r l m) : Credit a r l m' := by
  have hkeep := h.keep he hwf
  have hold : a ≠ m.d.nextAddr := Nat.ne_of_lt h.ends.near
  have hsame : ∀ s s', Open a r m → m.d.sockets a = some s → m.d.sockets a = some s' →
      s'.id = s.id ∧ spare s' = spare s ∧ (m.credit = some s.id → m.credit = some s.id) := by
    intro s s' _ hs hs'
    cases hs.symm.trans hs'
    exact ⟨rfl, rfl, id⟩
  have hfree : ∀ {b : Addr} (s s' : Asocket), Open a r m → m.d.sockets a = some s →
      update m.d.sockets b none a = some s' →
      s'.id = s.id ∧ spare s' = spare s ∧ (m.credit = some s.id → m.credit = some s.id) := by
    intro b s s' _ hs hs'
    rw [eq_of_free hs hs']
    exact ⟨rfl, rfl, id⟩
  have hnew : ∀ {y : Option Asocket} (s s' : Asocket), Open a r m → m.d.sockets a = some s →
      update m.d.sockets m.d.nextAddr y a = some s' →
      s'.id = s.id ∧ spare s' = spare s ∧ (m.credit = some s.id → m.credit = some s.id) := by
    intro y s s' _ hs hs'
    rw [eq_of_other hold hs hs']
    exact ⟨rfl, rfl, id⟩
  -- a socket that is being taken apart belongs to no open stream
  have hwhole : ∀ {b : Addr}, Open a r m → b ∈ m.orphans → a ≠ b := by
    rintro b hopen hb rfl
    exact (hopen.local_ hwf).1 hb
  have hassign : ∀ {b : Addr} {z z' : Asocket}, m.d.sockets b = some z →
      z'.id = z.id → spare z' = spare z → ∀ s s', Open a r m → m.d.sockets a = some s →
      update m.d.sockets b (some z') a = some s' →
      s'.id = s.id ∧ spare s' = spare s ∧ (m.credit = some s.id → m.credit = some s.id) := by
    intro b z z' hz hid hspare s s' _ hs hs'
    exact ⟨field_assign Asocket.id hz hid hs hs', field_assign spare hz hspare hs hs', id⟩
  have hother : ∀ {o : Obs}, Silent r l o → Same r l m.d.trace (o :: m.d.trace) := same_cons
  have hstrange : ∀ {t : TAddr} {r' : Addr} {p : Apacket} {tr : List Obs}, r' ≠ r →
      Same r l tr (.sent t (some r') p :: tr) := by
    intro t r' p tr hr
    exact same_cons fun hno => absurd (Option.some.inj hno) hr
  have hother_end : ∀ {b r' : Addr} {z : Asocket}, m.d.sockets b = some z → z.peer = some r' →
      r' ≠ r → Open a r m → a ≠ b := by
    rintro b r' z hz hp hr hopen rfl
    obtain ⟨-, y, hy, hpy⟩ := hopen.local_ hwf
    cases hz.symm.trans hy
    exact hr (Option.some.inj (hp.symm.trans hpy))
  have hchange := he
  cases he
  case note o ho =>
    refine hkeep (hother ?_) hsame
    cases o with
    | sent | received | stream => exact ho.elim
    | _ => trivial
  case forget =>
    refine hkeep same_refl fun s s' hopen hs hs' => ?_
    obtain ⟨hid, hspare, -⟩ := hsame s s' hopen hs hs'
    exact ⟨hid, hspare, nofun⟩
  case finish hecho =>
    refine hkeep same_refl fun s s' hopen hs hs' => ?_
    obtain ⟨hid, hspare, -⟩ := hsame s s' hopen hs hs'
    exact ⟨hid, hspare, nofun⟩
  case receive t x p rest hx hp hidle =>
    by_cases hgrant : p.msg.command = aOkay ∧ p.msg.arg1 = l
    · exact h.receive hchange hwf rfl hgrant rfl rfl
    · refine hkeep (hother fun hokay hl => hgrant ⟨hokay, hl⟩) fun s s' hopen hs hs' => ?_
      obtain ⟨hid, hspare, -⟩ := hsame s s' hopen hs hs'
      refine ⟨hid, hspare, fun hno => ?_⟩
      have hsid := (h.covered hopen s hs).1
      split at hno
      case isTrue hokay =>
        rw [Option.some.injEq, hsid] at hno
        exact absurd ⟨hokay, hno⟩ hgrant
      case isFalse => cases hno
  case send via p u x hx hmay hop habout hcmd hsync => exact hkeep (hother fun _ => hcmd) hsame
  case okay b r' z q p u x hb hz hq hp hrem hx hmay hop howed hcmd hid hdest =>
    refine hkeep (hother fun _ => ?_) hsame
    rw [hcmd]
    decide
  case unpeer b z hz hb => exact hkeep same_refl (hassign hz rfl rfl)
  case unname b z hz hl hb =>
    refine hkeep same_refl fun s s' hopen hs hs' => ?_
    rw [eq_of_other (hwhole hopen hb) hs hs']
    exact ⟨rfl, rfl, id⟩
  case free => exact hkeep same_refl hfree
  case freeTracker => exact hkeep same_refl hfree
  case dropRemote => exact hkeep same_refl hfree
  case retire b z i ev L hz hb hops hp hc hq hin hset hev hread =>
    refine hkeep (hother trivial) fun s s' hopen hs hs' => ?_
    rw [eq_of_other (hwhole hopen hb) hs hs']
    exact ⟨rfl, rfl, id⟩
  case createFd => exact hkeep same_refl hnew
  case createJdwp => exact hkeep same_refl hnew
  case createTracker => exact hkeep same_refl hnew
  case accept b z hz hb hp hops hc hl hin =>
    refine hkeep same_refl fun s s' hopen hs hs' => ?_
    rw [eq_of_pair (hwhole hopen hb) hold hs hs']
    exact ⟨rfl, rfl, id⟩
  case pair b z id u x hz hp hc hl hin hnew' hx hserve hon opened hopened =>
    have hstream : Same r l m.d.trace (.stream m.d.nextAddr b z.id id u :: m.d.trace) :=
      hother (Nat.ne_of_gt h.ends.far)
    have htrace : Same r l m.d.trace ((if opened then [.opened m.d.nextAddr b] else []) ++
        .stream m.d.nextAddr b z.id id u :: m.d.trace) := by
      cases opened with
      | true => exact hstream.trans (same_cons trivial)
      | false => exact hstream
    refine hkeep htrace fun s s' hopen hs hs' => ?_
    obtain ⟨y, hend⟩ := hopen.localEnd hwf
    cases hs.symm.trans hend.live
    have hab : a ≠ b := by
      rintro rfl
      cases hz.symm.trans hs
      cases hp.symm.trans hend.peer
    rw [eq_of_pair hab hold hs hs']
    refine ⟨rfl, rfl, fun hcredit => absurd ?_ hab⟩
    exact hdistinct a hend.listed b hl s z hs hz (Option.some.inj hcredit).symm
  case handOver b z t hz hb hops hc hl hin =>
    refine hkeep same_refl fun s s' hopen hs hs' => ?_
    rw [eq_of_other (hwhole hopen hb) hs hs']
    exact ⟨rfl, rfl, id⟩
  case answered b z hz hops =>
    exact hkeep same_refl (hassign hz rfl (by simp [spare, hops]))
  case exits b z hz => exact hkeep same_refl (hassign hz rfl rfl)
  case gather b z ps hz hops hc => exact hkeep same_refl (hassign hz rfl rfl)
  case enqueueLink b z p out ev L hb hz hops hc hout hin hset hev hread hcause hblock =>
    exact hkeep (hother trivial) (hassign hz rfl rfl)
  case drained b z ps out hb hz hops hbytes hlen hstuck hleft =>
    exact hkeep (hother trivial) (hassign hz rfl rfl)
  case flushed b z ev L hb hz hops hc hin hset hev hread hwrite hevents howed hcause hbef =>
    exact hkeep (hother trivial) (hassign hz rfl rfl)
  case grant b z ev L hz hops hin hset hev hread hwrite hp hcredit =>
    refine hkeep same_refl fun s s' hopen hs hs' => ?_
    obtain ⟨hid, hspare, -⟩ := hsame s s' hopen hs hs'
    exact ⟨hid, hspare, nofun⟩
  case wrteRead b r' z q p u x ev L hb hz hops hp hto hin hset hev hread hwrite hevents hsub hby
      hX =>
    have hread' : Same r l m.d.trace (.read b p.payload :: m.d.trace) := hother trivial
    by_cases hr : r' = r
    · subst hr
      have hopen : Open b r' m := open_of_peer hwf hb hz hp hto.live hto.remote
      obtain rfl := h.ends.only b hopen
      have hreads : Reads m.d.loop b := hsub.resolve_right hforce
      have hone : 1 ≤ tokens m b z := by
        rw [tokens_of_isFd hops, if_pos hreads]
        exact Nat.le_add_right _ _
      refine h.spend hchange hwf rfl hto.command hread' hopen hz hone fun s' hs' => ?_
      cases hz.symm.trans hs'
      have hstops : ¬Reads L b := not_reads_of_set hset hread
      rw [tokens_of_isFd hops, tokens_of_isFd hops, if_pos hreads, if_neg hstops]
      exact ⟨rfl, (congrArg (· + 1) (Nat.zero_add _)).trans_le (Nat.add_comm ..).le⟩
    · exact hkeep (hread'.trans (hstrange hr)) hsame
  case wrteJdwp b r' z q p u x hb hz hops hp hto hpass =>
    by_cases hr : r' = r
    · subst hr
      have hopen : Open b r' m := open_of_peer hwf hb hz hp hto.live hto.remote
      obtain rfl := h.ends.only b hopen
      have htokens : tokens m b z = 1 := by
        rw [tokens_of_not_isFd (by rw [hops]; rfl), spare, hops]
        simp [hpass]
      refine h.spend hchange hwf rfl hto.command
        same_refl hopen hz htokens.ge fun s' hs' => ?_
      cases eq_of_assign hs' rfl
      rw [htokens, tokens_of_not_isFd (by simp [hops, SocketOps.isFd]), spare]
      simp [hops]
    · refine hkeep (hstrange hr) fun s s' hopen hs hs' => ?_
      rw [eq_of_other (hother_end hz hp hr hopen) hs hs']
      exact ⟨rfl, rfl, id⟩
  case wrteTracker b r' z q p u x hb hz hops hp hto hneed =>
    by_cases hr : r' = r
    · subst hr
      have hopen : Open b r' m := open_of_peer hwf hb hz hp hto.live hto.remote
      obtain rfl := h.ends.only b hopen
      have htokens : tokens m b z = 1 := by
        rw [tokens_of_not_isFd (by rw [hops]; rfl), spare, hops]
        simp [hneed]
      refine h.spend hchange hwf rfl hto.command
        same_refl hopen hz htokens.ge fun s' hs' => ?_
      cases eq_of_assign hs' rfl
      rw [htokens, tokens_of_not_isFd (by simp [hops, SocketOps.isFd]), spare]
      simp [hops]
    · refine hkeep (hstrange hr) fun s s' hopen hs hs' => ?_
      rw [eq_of_other (hother_end hz hp hr hopen) hs hs']
      exact ⟨rfl, rfl, id⟩
  case unplug u x rest L hreg hx hrem hsame' hL own own' =>
    obtain ⟨os, htrace, hos⟩ := unplug_trace own own'
      (has (m.d.loop.mem (.transport u)).state fdeActive) m.d.trace
    have hquiet : Same r l m.d.trace (os ++ m.d.trace) := by
      refine same_append fun o ho => ?_
      rcases hos o ho with ⟨d, i, b, rfl⟩ | rfl <;> trivial
    exact hkeep (htrace ▸ hquiet) hsame
  case output u x y L R os n hidle hx hact hstep =>
    exact hkeep (same_append fun o ho => silent_of_thread (hstep.ofThread ho)) hsame
  case input u x y L R os n hidle hx hstart hstep =>
    exact hkeep (same_append fun o ho => silent_of_thread (hstep.ofThread ho)) hsame
  all_goals first
    | exact hkeep same_refl hsame
    | exact hkeep (same_cons trivial) hsame

end Credit

/-! ## From the start -/

section Main

variable {e : Event} {D₀ D D' : Daemon} {m m' : Moment} {a r : Addr} {l rid : UInt32}
  {t : TAddr}
  {s : Asocket}

lemma isWrte_of_unsent {os : List Obs} (h : ∀ t p, .sent t (some r) p ∉ os) {o : Obs}
    (ho : o ∈ os) : isWrte r o = false := by
  cases o with
  | sent t via p =>
    have hvia : ¬(via = some r ∧ p.msg.command = aWrte) := by
      rintro ⟨rfl, -⟩
      exact h t p ho
    simpa [isWrte] using hvia
  | _ => rfl

/-- A socket that is paired with a new one does not read. -/
lemma not_reads_of_pair (hquiet : Quiet m) (hs : m.d.sockets a = some s) (hp : s.peer = none)
    (hc : s.closing = false) (hfd : s.ops.isFd = true)
    (hnew : a ∈ m.orphans → has (m.d.loop.mem (.socket a)).state fdeRead = false) :
    ¬Reads m.d.loop a := by
  intro hreads
  by_cases ha : a ∈ m.orphans
  · have hno := hnew ha
    rw [Reads, hno] at hreads
    cases hreads
  · exact hquiet a ⟨ha, s, hs, hfd, hp, hc⟩ hreads

/-- A stream starts with one packet it may send. -/
lemma credit_of_stream (he : Effect e D₀ m m') (hwf : Wf m) (hquiet : Quiet m)
    (hunsent : ∀ t p, .sent t (some m.d.nextAddr) p ∉ m.d.trace)
    (h : .stream r a l rid t ∈ m'.d.trace) :
    .stream r a l rid t ∈ m.d.trace ∨ Credit a r l m' := by
  rcases StreamIds.stream_cases he h with hold | ⟨rfl, hN, -⟩
  · exact .inl hold
  cases he
  case createFd => exact .inl h
  case createJdwp => exact .inl h
  case createTracker => exact .inl h
  case accept => exact .inl h
  case pair b z id u x hz hp hc hl hin hnew hx hserve hon opened hopened =>
    have hmem : Obs.stream m.d.nextAddr a l rid t ∈
        Obs.stream m.d.nextAddr b z.id id u :: m.d.trace := by
      refine (List.mem_append.mp h).resolve_left fun hno => ?_
      cases opened with
      | true => cases List.mem_singleton.mp hno
      | false => cases hno
    rcases List.mem_cons.mp hmem with heq | hold
    case inr => exact .inl hold
    cases heq
    refine .inr ?_
    have hne : a ≠ m.d.nextAddr := Nat.ne_of_lt (hwf.peers.fresh a z hz)
    set tr : List Obs := (if opened then [.opened m.d.nextAddr a] else []) ++
      .stream m.d.nextAddr a z.id rid t :: m.d.trace with htr
    have hsent : ∀ o ∈ tr, isWrte m.d.nextAddr o = false := by
      refine fun o ho => isWrte_of_unsent (fun u p hno => ?_) ho
      cases opened with
      | true =>
        have hno := (List.mem_cons.mp hno).resolve_left Obs.noConfusion
        exact hunsent u p ((List.mem_cons.mp hno).resolve_left Obs.noConfusion)
      | false => exact hunsent u p ((List.mem_cons.mp hno).resolve_left Obs.noConfusion)
    have hnone : writes m.d.nextAddr tr = 0 :=
      List.countP_eq_zero.mpr fun o ho => by rw [hsent o ho]; decide
    have hlive : ∀ q, update (update m.d.sockets m.d.nextAddr (some
          { ops := .remote, id := rid, transport := some t, peer := some a })) a
        (some { z with peer := some m.d.nextAddr }) m.d.nextAddr = some q →
        q = { ops := .remote, id := rid, transport := some t, peer := some a } := by
      intro q hq
      rw [update_of_ne hne.symm, update_self, Option.some.injEq] at hq
      exact hq.symm
    refine ⟨⟨?_, Nat.lt_succ_self _, fun q hq => ?_, fun b hb => ?_⟩, ?_, fun _ s hs => ?_,
      fun o os ho hwrte => ?_⟩
    · exact Nat.lt_succ_of_lt (hwf.peers.fresh a z hz)
    · rw [hlive q hq]
    · obtain ⟨-, q, hq, -, hpeer⟩ := hb
      rw [hlive q hq] at hpeer
      exact (Option.some.inj hpeer).symm
    · change writes m.d.nextAddr tr ≤ _
      rw [hnone]
      exact Nat.zero_le _
    · cases eq_of_assign hs rfl
      refine ⟨rfl, ?_⟩
      change writes m.d.nextAddr tr + _ ≤ _
      rw [hnone, Nat.zero_add]
      refine le_trans (tokens_le_one fun hfd hreads => ?_) (Nat.le_add_right _ _)
      refine not_reads_of_pair hquiet hz hp hc hfd (fun hb => hnew hb hfd) ?_
      refine reads_of_mem (Loop.setMem_mem_of_ne ?_ ..) hreads
      exact fun heq => hne (FdeId.socket.inj heq)
    · have hno := hsent o (ho.subset List.mem_cons_self)
      rw [hno] at hwrte
      cases hwrte
  all_goals exact absurd hN (Nat.ne_of_lt (Nat.lt_succ_self _))

/-- A stream from before its sockets exist. -/
structure Before (a r : Addr) (l : UInt32) (m : Moment) : Prop where
  distinct : Distinct m
  quiet : Quiet m
  unsent : ∀ r t p, m.d.nextAddr ≤ r → .sent t (some r) p ∉ m.d.trace
  credit : ∀ rid t, .stream r a l rid t ∈ m.d.trace → Credit a r l m

/-- The step gives out an id. -/
def GivesId (e : Event) (D : Daemon) : Prop :=
  ∃ D', D.step e = .ok D' ∧ D'.localSocketNextId ≠ D.localSocketNextId

/-- The condition of the result: an id that is given out is free, and the socket is not made to
read because its shell has exited. -/
def Credited (a : Addr) (e : Event) (D : Daemon) : Prop :=
  (GivesId e D → SocketIds.NextIdFree D) ∧ ¬ForcesRead e D a

/-- Every change keeps what is known of a stream, be it open or not. -/
lemma before_effect (hfree : m'.d.localSocketNextId ≠ D.localSocketNextId →
    SocketIds.NextIdFree D) (hforce : ¬ForcesRead e D a) (hwf₀ : Wf { d := D })
    (hpath : ReflTransGen (Effect e D) { d := D } m) (h : Before a r l m)
    (he : Effect e D m m') : Before a r l m' := by
  have hwf := wf_of_path hpath hwf₀
  have hN := StreamIds.nextAddr_le he
  refine ⟨distinct_effect he hwf₀ hpath hfree h.distinct, quiet_effect he hwf h.quiet,
    fun r t p hle hsent => ?_, fun rid t hstream => ?_⟩
  · rcases ServiceBytes.tells he hwf hsent with hold | htold
    · exact h.unsent r t p (hN.trans hle) hold
    · obtain ⟨q, hq⟩ := Option.isSome_iff_exists.mp (htold r rfl)
      exact absurd (hwf.peers.fresh r q hq) (Nat.not_lt.mpr (hN.trans hle))
  · have hunsent : ∀ t p, .sent t (some m.d.nextAddr) p ∉ m.d.trace :=
      fun t p => h.unsent _ t p le_rfl
    rcases credit_of_stream he hwf h.quiet hunsent hstream with hold | hnew
    · exact credit_effect he hwf h.distinct hforce (h.credit rid t hold)
    · exact hnew

/-- A step that meets the condition keeps what is known of a stream. -/
lemma before_step (hcond : Credited a e D) (hwf : Wf { d := D }) (h : Before a r l { d := D })
    (hs : D.step e = .ok D') : Before a r l { d := D' } := by
  -- at every moment of the step: an id given out by then has been given out when the step ends
  have hall : ∀ m, ReflTransGen (Effect e D) { d := D } m →
      ReflTransGen (Effect e D) m { d := D' } → Before a r l m := by
    intro m hpath
    induction hpath with
    | refl => exact fun _ => h
    | tail hpath he ih =>
      intro hrest
      refine before_effect (fun hgiven => hcond.1 ⟨D', hs, ?_⟩) hcond.2 hwf hpath
        (ih (.head he hrest)) he
      have hend := nextId_of_path hrest hgiven
      rw [← hend] at hgiven
      exact hgiven
  exact hall _ (path_of_step hwf hs) .refl

end Main

/-! ## A run -/

section Run

variable {e : Event} {D : Daemon} {a : Addr}

/-- A test for `Credited`, whether the step gives out an id or not. -/
def credited (a : Addr) (e : Event) (D : Daemon) : Bool :=
  decide (D.localSocketNextId ≠ 0) &&
    D.localSocketList.all (fun b => (D.sockets b).all (·.id ≠ D.localSocketNextId)) &&
    !(D.delivered e).any fun d => decide (d.1 = .socket a) && has d.2.1 fdeRead &&
      !has (D.loop.mem (.socket a)).state fdeRead

lemma credited_of_test (h : credited a e D = true) : Credited a e D := by
  simp only [credited, Bool.and_eq_true, List.all_eq_true, Option.all_eq_true, decide_eq_true_eq,
    Bool.not_eq_true'] at h
  obtain ⟨⟨hzero, hunused⟩, hforce⟩ := h
  refine ⟨fun _ => ⟨hzero, hunused⟩, ?_⟩
  rintro ⟨ev, rs, s, r, hd, hread, hstate, -⟩
  simp [hd, hread, hstate] at hforce

/-- A shell says `hi!` as soon as it is opened; when that has been acknowledged it says `hi!`
again. -/
def speaksTwice : List Event :=
  openShell ++ ServiceBytes.speaks ++ carry 0 11 (packetOf aOkay 7 1 []) {} ++ ServiceBytes.speaks

end Run

end Adbd.FlowControl
