import Adbd.Effects.Kinds

/-!
# The two ends of a stream

A stream is a local socket and a remote one that are each other's peers.  It is taken apart by
making both ends orphans: until then a change leaves the remote end as it is, and an orphaned
remote socket stays one until it is freed.
-/

namespace Adbd

open Function

variable {e : Event} {D₀ : Daemon} {m m' : Moment} {a b r : Addr} {s s' q : Asocket}

/-- How the socket at `b` may have changed. -/
structure Aged (b : Addr) (X X' : Set Addr) (s s' : Asocket) : Prop where
  isFd : s'.ops.isFd = s.ops.isFd
  remote : s'.ops = .remote ↔ s.ops = .remote
  orphan : s.ops = .remote → b ∈ X → b ∈ X'
  same : s.ops = .remote → b ∉ X' →
    s'.peer = s.peer ∧ s'.id = s.id ∧ s'.transport = s.transport

/-- Whatever is at `b` was there before, and has changed as a socket may. -/
def Ages (m m' : Moment) : Prop :=
  ∀ b s', b < m.d.nextAddr → m'.d.sockets b = some s' →
    ∃ s, m.d.sockets b = some s ∧ Aged b m.orphans m'.orphans s s'

section Ages

lemma ages_of_eq (hS : m'.d.sockets = m.d.sockets) (hX : m.orphans ⊆ m'.orphans) : Ages m m' :=
  fun _ s' _ hs' => ⟨s', hS ▸ hs', rfl, Iff.rfl, fun _ hb => hX hb, fun _ _ => ⟨rfl, rfl, rfl⟩⟩

/-- The socket at `a` is assigned to. -/
lemma ages_assign (hs : m.d.sockets a = some s) (hS : m'.d.sockets = update m.d.sockets a (some s'))
    (hX : ∀ b, b ≠ a → b ∈ m.orphans → b ∈ m'.orphans)
    (hold : Aged a m.orphans m'.orphans s s') : Ages m m' := by
  intro b z _ hz
  rw [hS] at hz
  by_cases hba : b = a
  · subst hba
    rw [update_self, Option.some.injEq] at hz
    exact ⟨s, hs, hz ▸ hold⟩
  · exact ⟨z, (update_of_ne hba ..).symm.trans hz, rfl, Iff.rfl, fun _ => hX b hba,
      fun _ _ => ⟨rfl, rfl, rfl⟩⟩

/-- The socket at `a` is freed. -/
lemma ages_free (hS : m'.d.sockets = update m.d.sockets a none)
    (hX : m'.orphans = m.orphans \ {a}) : Ages m m' := by
  intro b z _ hz
  rw [hS] at hz
  by_cases hba : b = a
  · rw [hba, update_self] at hz
    cases hz
  · refine ⟨z, (update_of_ne hba ..).symm.trans hz, rfl, Iff.rfl, fun _ hb => ?_,
      fun _ _ => ⟨rfl, rfl, rfl⟩⟩
    rw [hX]
    exact ⟨hb, hba⟩

/-- A socket is made. -/
lemma ages_create {z : Option Asocket} (hS : m'.d.sockets = update m.d.sockets m.d.nextAddr z)
    (hX : m.orphans ⊆ m'.orphans) : Ages m m' := by
  intro b s' hb hs'
  rw [hS, update_of_ne (Nat.ne_of_lt hb)] at hs'
  exact ⟨s', hs', rfl, Iff.rfl, fun _ hb => hX hb, fun _ _ => ⟨rfl, rfl, rfl⟩⟩

/-- A socket is made and paired with the one at `a`, which is not remote. -/
lemma ages_pair {z : Option Asocket} (hs : m.d.sockets a = some s) (hne : a ≠ m.d.nextAddr)
    (hops : s.ops ≠ .remote)
    (hS : m'.d.sockets = update (update m.d.sockets m.d.nextAddr z) a (some s'))
    (hsame : s'.ops = s.ops) (hX : m'.orphans = m.orphans \ {a}) : Ages m m' := by
  intro b t hb ht
  rw [hS] at ht
  by_cases hba : b = a
  · subst hba
    rw [update_self, Option.some.injEq] at ht
    subst ht
    exact ⟨s, hs, by rw [hsame], by rw [hsame], fun hno => absurd hno hops,
      fun hno => absurd hno hops⟩
  · rw [update_of_ne hba, update_of_ne (Nat.ne_of_lt hb)] at ht
    refine ⟨t, ht, rfl, Iff.rfl, fun _ hb' => ?_, fun _ _ => ⟨rfl, rfl, rfl⟩⟩
    rw [hX]
    exact ⟨hb', hba⟩

end Ages

/-- A socket keeps its kind, and a remote one its data until it is an orphan. -/
theorem Effect.ages (he : Effect e D₀ m m') (h : Wf m) : Ages m m' := by
  have hne : ∀ {b : Addr} {s : Asocket}, m.d.sockets b = some s → b ≠ m.d.nextAddr :=
    fun hs => Nat.ne_of_lt (h.peers.fresh _ _ hs)
  have hlisted : ∀ {b : Addr} {s : Asocket}, b ∈ m.d.localSocketList → m.d.sockets b = some s →
      s.ops ≠ .remote := by
    intro b s hb hs hrem
    obtain ⟨s', hs', -, hlocal⟩ := h.peers.listed b hb
    cases hs.symm.trans hs'
    rw [hrem] at hlocal
    cases hlocal
  cases he
  case sever a p s hs hp ha =>
    exact ages_of_eq rfl fun b hb => Set.mem_insert_of_mem _ (Set.mem_insert_of_mem _ hb)
  case single a s hs hp => exact ages_of_eq rfl fun b hb => Set.mem_insert_of_mem _ hb
  case unpeer a s hs ha =>
    exact ages_assign hs rfl (fun _ _ hb => hb)
      ⟨rfl, Iff.rfl, fun _ hb => hb, fun _ hno => absurd ha hno⟩
  case unname a s hs hl ha =>
    exact ages_assign hs rfl (fun _ _ hb => hb)
      ⟨rfl, Iff.rfl, fun _ hb => hb, fun _ hno => absurd ha hno⟩
  case free => exact ages_free rfl rfl
  case freeTracker => exact ages_free rfl rfl
  case dropRemote => exact ages_free rfl rfl
  case retire a s i ev L hs ha hops hp hclosing hq hin hset hev hread =>
    have hrem : s.ops ≠ .remote := by
      intro hno
      rw [hno] at hops
      cases hops
    exact ages_assign hs rfl (fun _ hba hb => ⟨hb, hba⟩)
      ⟨rfl, Iff.rfl, fun hno => absurd hno hrem, fun hno => absurd hno hrem⟩
  case createFd => exact ages_create rfl fun b hb => Set.mem_insert_of_mem _ hb
  case createJdwp => exact ages_create rfl fun b hb => Set.mem_insert_of_mem _ hb
  case createTracker => exact ages_create rfl fun b hb => Set.mem_insert_of_mem _ hb
  case accept a s hs ha hp hops hclosing hl hin =>
    exact ages_pair hs (hne hs) (hlisted hl hs) rfl rfl rfl
  case pair a s id t x hs hp hclosing hl hin hnew hx hserve honline opened hopened =>
    exact ages_pair hs (hne hs) (hlisted hl hs) rfl rfl rfl
  case handOver a s t hs ha hops hclosing hl hin =>
    exact ages_assign hs rfl (fun _ _ hb => hb)
      ⟨by rw [hops]; rfl, by simp [hops], fun hno => absurd hno (hlisted hl hs),
        fun hno => absurd hno (hlisted hl hs)⟩
  case await a s ev L hs ha hops hp hclosing hl hin hset hev hread hevents hwrite hlate =>
    have hsame : m.d.sockets = update m.d.sockets a (some s) :=
      (update_eq_self_iff.mpr hs.symm).symm
    exact ages_assign hs hsame (fun _ hba hb => ⟨hb, hba⟩)
      ⟨rfl, Iff.rfl, fun hno => absurd hno (hlisted hl hs), fun hno => absurd hno (hlisted hl hs)⟩
  case answered a s hs hops =>
    exact ages_assign hs rfl (fun _ _ hb => hb)
      ⟨by rw [hops]; rfl, by simp [hops], fun _ hb => hb, fun _ _ => ⟨rfl, rfl, rfl⟩⟩
  case exits a s hs =>
    exact ages_assign hs rfl (fun _ _ hb => hb)
      ⟨rfl, Iff.rfl, fun _ hb => hb, fun _ _ => ⟨rfl, rfl, rfl⟩⟩
  case gather a s ps hs hops hclosing =>
    exact ages_assign hs rfl (fun _ _ hb => hb)
      ⟨rfl, Iff.rfl, fun _ hb => hb, fun _ _ => ⟨rfl, rfl, rfl⟩⟩
  case enqueueLink a s p out ev L ha hs hops hclosing hout hin hset hev hread hcause hblock =>
    exact ages_assign hs rfl (fun _ _ hb => hb)
      ⟨rfl, Iff.rfl, fun _ hb => hb, fun _ _ => ⟨rfl, rfl, rfl⟩⟩
  case drained a s ps out ha hs hops hbytes hlen hstuck hleft =>
    exact ages_assign hs rfl (fun _ _ hb => hb)
      ⟨rfl, Iff.rfl, fun _ hb => hb, fun _ _ => ⟨rfl, rfl, rfl⟩⟩
  case flushed a s ev L ha hs hops hclosing hin hset hev hread hwrite hevents howed hcause hbef =>
    exact ages_assign hs rfl (fun _ _ hb => hb)
      ⟨rfl, Iff.rfl, fun _ hb => hb, fun _ _ => ⟨rfl, rfl, rfl⟩⟩
  case wrteJdwp a r s q p t x ha hs hops hp hto hpass =>
    exact ages_assign hs rfl (fun _ _ hb => hb)
      ⟨rfl, Iff.rfl, fun _ hb => hb, fun _ _ => ⟨rfl, rfl, rfl⟩⟩
  case wrteTracker a r s q p t x ha hs hops hp hto hneed =>
    exact ages_assign hs rfl (fun _ _ hb => hb)
      ⟨rfl, Iff.rfl, fun _ hb => hb, fun _ _ => ⟨rfl, rfl, rfl⟩⟩
  all_goals exact ages_of_eq rfl fun _ hb => hb

/-! ## Fields of sockets nobody assigns to -/

section Fields

variable {S S' : Addr → Option Asocket} {z z' : Asocket} {y : Option Asocket} {c : Addr}

lemma eq_of_assign (h : S' b = some s') (hS : S' = update S b (some z')) : s' = z' := by
  rw [hS, update_self, Option.some.injEq] at h
  exact h.symm

lemma eq_of_other (hab : a ≠ b) (hs : S a = some s) (h : update S b y a = some s') : s' = s := by
  rw [update_of_ne hab, hs, Option.some.injEq] at h
  exact h.symm

lemma eq_of_free (hs : S a = some s) (h : update S b none a = some s') : s' = s := by
  by_cases hab : a = b
  · rw [hab, update_self] at h
    cases h
  · exact eq_of_other hab hs h

lemma eq_of_pair (hab : a ≠ b) (hac : a ≠ c) (hs : S a = some s)
    (h : update (update S c y) b (some z') a = some s') : s' = s := by
  rw [update_of_ne hab] at h
  exact eq_of_other hac hs h

/-- What is assigned to a socket leaves `f` of it as it is. -/
lemma exists_of_assign {β : Type*} (f : Asocket → β) (hz : S b = some z) (hf : f z' = f z)
    (h : update S b (some z') a = some s') : ∃ s, S a = some s ∧ f s' = f s := by
  by_cases hab : a = b
  · subst hab
    rw [update_self, Option.some.injEq] at h
    exact ⟨z, hz, h ▸ hf⟩
  · rw [update_of_ne hab] at h
    exact ⟨s', h, rfl⟩

lemma field_assign {β : Type*} (f : Asocket → β) (hz : S b = some z) (hf : f z' = f z)
    (hs : S a = some s) (h : update S b (some z') a = some s') : f s' = f s := by
  obtain ⟨u, hu, hfu⟩ := exists_of_assign f hz hf h
  cases hs.symm.trans hu
  exact hfu

end Fields

/-! ## Open streams -/

/-- The stream of the remote socket `r` and the local socket `a` is open. -/
def Open (a r : Addr) (m : Moment) : Prop :=
  r ∉ m.orphans ∧ ∃ q, m.d.sockets r = some q ∧ q.ops = .remote ∧ q.peer = some a

/-- Both ends of an open stream know each other. -/
lemma Open.local_ (h : Open a r m) (hwf : Wf m) :
    a ∉ m.orphans ∧ ∃ s, m.d.sockets a = some s ∧ s.peer = some r := by
  obtain ⟨hr, q, hq, -, hp⟩ := h
  obtain ⟨ha, s, hs, hback, -⟩ := hwf.peers.paired r q a hr hq hp
  exact ⟨ha, s, hs, hback⟩

/-- A remote peer makes an open stream. -/
lemma open_of_peer (hwf : Wf m) (ha : a ∉ m.orphans) (hs : m.d.sockets a = some s)
    (hp : s.peer = some r) (hq : m.d.sockets r = some q) (hrem : q.ops = .remote) :
    Open a r m := by
  obtain ⟨hr, q', hq', hback, -⟩ := hwf.peers.paired a s r ha hs hp
  rw [hq, Option.some.injEq] at hq'
  exact ⟨hr, q, hq, hrem, hq' ▸ hback⟩

lemma Open.unique {b : Addr} (h : Open a r m) (h' : Open b r m) : b = a := by
  obtain ⟨-, q, hq, -, hp⟩ := h
  obtain ⟨-, q', hq', -, hp'⟩ := h'
  rw [hq, Option.some.injEq] at hq'
  rw [← hq', hp, Option.some.injEq] at hp'
  exact hp'.symm

/-- A stream that is open was open before, if its remote end existed. -/
lemma Open.before (h : Open a r m') (he : Effect e D₀ m m') (hwf : Wf m)
    (hr : r < m.d.nextAddr) : Open a r m := by
  obtain ⟨hX, q', hq', hrem, hp⟩ := h
  obtain ⟨q, hq, hold⟩ := he.ages hwf r q' hr hq'
  have hrem' := hold.remote.mp hrem
  obtain ⟨hpeer, -, -⟩ := hold.same hrem' hX
  exact ⟨fun hno => hX (hold.orphan hrem' hno), q, hq, hrem', hpeer ▸ hp⟩

/-- The remote socket `r` is, or was, the other end of `a`. -/
structure Ends (a r : Addr) (m : Moment) : Prop where
  near : a < m.d.nextAddr
  far : r < m.d.nextAddr
  remote : ∀ q, m.d.sockets r = some q → q.ops = .remote
  only : ∀ b, Open b r m → b = a

/-- An end is never given to another stream. -/
theorem Ends.after (h : Ends a r m) (he : Effect e D₀ m m') (hwf : Wf m)
    (hN : m.d.nextAddr ≤ m'.d.nextAddr) : Ends a r m' := by
  refine ⟨h.near.trans_le hN, h.far.trans_le hN, fun q' hq' => ?_, fun b hb => ?_⟩
  · obtain ⟨q, hq, hold⟩ := he.ages hwf r q' h.far hq'
    exact hold.remote.mpr (h.remote q hq)
  · exact h.only b (hb.before he hwf h.far)

/-- The local end of an open stream. -/
structure LocalEnd (a r : Addr) (m : Moment) (s : Asocket) : Prop where
  whole : a ∉ m.orphans
  live : m.d.sockets a = some s
  peer : s.peer = some r
  closing : s.closing = false
  isLocal : s.ops.isLocal = true
  listed : a ∈ m.d.localSocketList

lemma Open.localEnd (h : Open a r m) (hwf : Wf m) : ∃ s, LocalEnd a r m s := by
  obtain ⟨ha, s, hs, hp⟩ := h.local_ hwf
  obtain ⟨-, q, hq, hrem, -⟩ := h
  obtain ⟨-, q', hq', -, hpairs⟩ := hwf.peers.paired a s r ha hs hp
  cases hq.symm.trans hq'
  have hclosing : s.closing = false := by
    by_contra hc
    rw [Bool.not_eq_false] at hc
    obtain ⟨z, hz, -, -, hnone⟩ := hwf.peers.flushing a (hwf.peers.inClosing a s ha hs hc)
    cases hs.symm.trans hz
    cases hp.symm.trans hnone
  have hlocal : s.ops.isLocal = true := by
    rw [hrem] at hpairs
    cases hops : s.ops <;> simp_all [SocketOps.pairs, SocketOps.isLocal]
  exact ⟨s, ha, hs, hp, hclosing, hlocal, hwf.peers.inList a s ha hs hlocal hclosing⟩

end Adbd
