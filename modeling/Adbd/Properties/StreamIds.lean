import Adbd.Properties.PeerLinks

/-!
# Ids of the packets of a stream

A packet sent on behalf of a remote socket carries the ids under which that socket and its peer
were paired, as long as no local socket of a stream is closed from its own side, no host
addresses a stream it does not own, and the counter of `install_local_socket` has not wrapped.

The first of the three is the usual case: `local_socket_close_locked` and its siblings clear the
back pointer of the peer before they call its `close`, so `remote_socket_close` finds no peer to
take the id from and sends `A_CLSE` with 0.
-/

namespace Adbd.StreamIds

open Function Relation Transition Daemon PeerLinks

/-! ## What a change adds -/

section Changes

variable {e : Event} {D₀ : Daemon} {m m' : Moment} {t : TAddr} {via : Option Addr} {p : Apacket}
  {r a : Addr} {l rid : UInt32} {s s' : Asocket}

/-- A packet is sent from one end of a stream: `s`, at `a`, is the local one. -/
structure FromStream (e : Event) (D₀ : Daemon) (m : Moment) (t : TAddr) (via : Option Addr)
    (p : Apacket) (a r : Addr) (s q : Asocket) : Prop where
  via : via = some r
  whole : a ∉ m.orphans
  live : m.d.sockets a = some s
  peer : s.peer = some r
  other : m.d.sockets r = some q
  remote : q.ops = .remote
  arg0 : p.msg.arg0 = s.id
  dest : p.msg.arg1 = q.id ∧ q.transport = some t ∨ Misaddressed e D₀

/-- A packet sent is about the end of a stream, or from one, or belongs to none. -/
lemma sent_cases (he : Effect e D₀ m m') (h : .sent t via p ∈ m'.d.trace) :
    .sent t via p ∈ m.d.trace ∨ p.msg.command ≠ aWrte ∧ m.About e D₀ via p t ∨
      ∃ a r s q, FromStream e D₀ m t via p a r s q := by
  cases he
  case note o ho =>
    rcases List.mem_cons.mp h with rfl | h
    · exact ho.elim
    · exact .inl h
  case send via' p' u x hx hmay hopen habout hcmd hsync =>
    rcases List.mem_cons.mp h with heq | h
    · cases heq
      exact .inr (.inl ⟨hcmd, habout⟩)
    · exact .inl h
  case okay a r s q p' u x ha hs hq hp hr hx hmay hopen howed hcmd hid hdest =>
    rcases List.mem_cons.mp h with heq | h
    · cases heq
      exact .inr (.inr ⟨a, r, s, q, rfl, ha, hs, hp, hq, hr, hid,
        hdest.imp_right And.left⟩)
    · exact .inl h
  case wrteRead a r s q p' u x ev L ha hs hops hp hto hin hset hev hread hwrite hevents hsub hb _ =>
    rcases List.mem_cons.mp h with heq | h
    · cases heq
      exact .inr (.inr ⟨a, r, s, q, rfl, ha, hs, hp, hto.live, hto.remote, hto.arg0,
        .inl ⟨hto.arg1, hto.transport⟩⟩)
    · rcases List.mem_cons.mp h with heq | h
      · cases heq
      · exact .inl h
  case wrteJdwp a r s q p' u x ha hs hops hp hto hpass =>
    rcases List.mem_cons.mp h with heq | h
    · cases heq
      exact .inr (.inr ⟨a, r, s, q, rfl, ha, hs, hp, hto.live, hto.remote, hto.arg0,
        .inl ⟨hto.arg1, hto.transport⟩⟩)
    · exact .inl h
  case wrteTracker a r s q p' u x ha hs hops hp hto hneed =>
    rcases List.mem_cons.mp h with heq | h
    · cases heq
      exact .inr (.inr ⟨a, r, s, q, rfl, ha, hs, hp, hto.live, hto.remote, hto.arg0,
        .inl ⟨hto.arg1, hto.transport⟩⟩)
    · exact .inl h
  case pair a s id u x hs hp hc hl hin hnew hx hserve hon opened hopened =>
    rcases List.mem_append.mp h with h | h
    · split at h
      · rw [List.mem_singleton] at h
        cases h
      · cases h
    · rcases List.mem_cons.mp h with heq | h
      · cases heq
      · exact .inl h
  case unplug u x rest L hreg hx hrem hsame hL own own' =>
    rcases List.mem_cons.mp h with heq | h
    · cases heq
    rcases List.mem_append.mp h with h | h
    · split at h
      · rw [List.mem_singleton] at h
        cases h
      · cases h
    · rcases List.mem_cons.mp h with heq | h
      · cases heq
      · exact .inl h
  case output u x y L R os n hidle hx hact hstep =>
    rcases List.mem_append.mp h with h | h
    · exact (hstep.ofThread h).elim
    · exact .inl h
  case input u x y L R os n hidle hx hstart hstep =>
    rcases List.mem_append.mp h with h | h
    · exact (hstep.ofThread h).elim
    · exact .inl h
  all_goals first
    | exact .inl h
    | exact .inl ((List.mem_cons.mp h).resolve_left (fun heq => by cases heq))

/-- A stream is recorded when a listed socket is paired with a new remote one. -/
lemma stream_cases (he : Effect e D₀ m m') (h : .stream r a l rid t ∈ m'.d.trace) :
    .stream r a l rid t ∈ m.d.trace ∨ r = m.d.nextAddr ∧ m'.d.nextAddr = m.d.nextAddr + 1 ∧
      a ∈ m.d.localSocketList ∧ ∃ s, m.d.sockets a = some s ∧ s.id = l := by
  cases he
  case note o ho =>
    rcases List.mem_cons.mp h with rfl | h
    · exact ho.elim
    · exact .inl h
  case pair b s id u x hs hp hc hl hin hnew hx hserve hon opened hopened =>
    rcases List.mem_append.mp h with h | h
    · split at h
      · rw [List.mem_singleton] at h
        cases h
      · cases h
    · rcases List.mem_cons.mp h with heq | h
      · cases heq
        exact .inr ⟨rfl, rfl, hl, s, hs, rfl⟩
      · exact .inl h
  case wrteRead =>
    have h := (List.mem_cons.mp h).resolve_left (fun heq => by cases heq)
    exact .inl ((List.mem_cons.mp h).resolve_left (fun heq => by cases heq))
  case unplug u x rest L hreg hx hrem hsame hL own own' =>
    rcases List.mem_cons.mp h with heq | h
    · cases heq
    rcases List.mem_append.mp h with h | h
    · split at h
      · rw [List.mem_singleton] at h
        cases h
      · cases h
    · rcases List.mem_cons.mp h with heq | h
      · cases heq
      · exact .inl h
  case output u x y L R os n hidle hx hact hstep =>
    rcases List.mem_append.mp h with h | h
    · exact (hstep.ofThread h).elim
    · exact .inl h
  case input u x y L R os n hidle hx hstart hstep =>
    rcases List.mem_append.mp h with h | h
    · exact (hstep.ofThread h).elim
    · exact .inl h
  all_goals first
    | exact .inl h
    | exact .inl ((List.mem_cons.mp h).resolve_left (fun heq => by cases heq))

/-- Addresses are handed out in order. -/
lemma nextAddr_le (he : Effect e D₀ m m') : m.d.nextAddr ≤ m'.d.nextAddr := by
  cases he <;> first | exact le_rfl | exact Nat.le_succ _

/-- A listed socket keeps its id, and a new one takes the next. -/
lemma listed_cases (he : Effect e D₀ m m') (h : Wf m) (ha : a ∈ m'.d.localSocketList)
    (hs : m'.d.sockets a = some s') :
    (a ∈ m.d.localSocketList ∧ ∃ s, m.d.sockets a = some s ∧ s'.id = s.id) ∨
      a = m.d.nextAddr ∧ s'.id = D₀.localSocketNextId := by
  have hnodup := h.peers.listNodup
  -- a socket is rewritten, and keeps its id unless it leaves the list
  have hkeep : ∀ {b : Addr} {s q : Asocket}, m.d.sockets b = some s →
      a ∈ m.d.localSocketList → update m.d.sockets b (some q) a = some s' →
      (a = b → q.id = s.id) →
      a ∈ m.d.localSocketList ∧ ∃ s, m.d.sockets a = some s ∧ s'.id = s.id := by
    intro b s q hb hmem hlive hid
    by_cases hab : a = b
    · subst hab
      rw [update_self, Option.some.injEq] at hlive
      exact ⟨hmem, s, hb, hlive ▸ hid rfl⟩
    · rw [update_of_ne hab] at hlive
      exact ⟨hmem, s', hlive, rfl⟩
  have hfree : ∀ {b : Addr}, a ∈ m.d.localSocketList →
      update m.d.sockets b none a = some s' →
      a ∈ m.d.localSocketList ∧ ∃ s, m.d.sockets a = some s ∧ s'.id = s.id := by
    intro b hmem hlive
    by_cases hab : a = b
    · rw [hab, update_self] at hlive
      cases hlive
    · rw [update_of_ne hab] at hlive
      exact ⟨hmem, s', hlive, rfl⟩
  -- a socket is created
  have hnew : ∀ {q : Asocket}, a ∈ m.d.localSocketList ++ [m.d.nextAddr] →
      update m.d.sockets m.d.nextAddr (some q) a = some s' →
      m.d.localSocketNextId = D₀.localSocketNextId → q.id = m.d.localSocketNextId →
      (a ∈ m.d.localSocketList ∧ ∃ s, m.d.sockets a = some s ∧ s'.id = s.id) ∨
        a = m.d.nextAddr ∧ s'.id = D₀.localSocketNextId := by
    intro q hmem hlive hfirst hid
    by_cases haN : a = m.d.nextAddr
    · rw [haN, update_self, Option.some.injEq] at hlive
      exact .inr ⟨haN, by rw [← hlive, hid, hfirst]⟩
    · rw [update_of_ne haN] at hlive
      rw [List.mem_append, List.mem_singleton] at hmem
      exact .inl ⟨hmem.resolve_right haN, s', hlive, rfl⟩
  cases he
  case unpeer b s hb hX => exact .inl (hkeep hb ha hs fun _ => rfl)
  case unname b s hb hl hX =>
    refine .inl (hkeep hb (List.mem_of_mem_erase ha) hs fun hab => ?_)
    exact absurd (hab ▸ ha) hnodup.not_mem_erase
  case free => exact .inl (hfree ha hs)
  case freeTracker => exact .inl (hfree ha hs)
  case dropRemote => exact .inl (hfree ha hs)
  case retire b s i ev L hb hX hops hp hc hq hin hset hev hread =>
    refine .inl (hkeep hb (List.mem_of_mem_erase ha) hs fun hab => ?_)
    exact absurd (hab ▸ ha) hnodup.not_mem_erase
  case createFd n L hfirst hown hins => exact hnew ha hs hfirst rfl
  case createJdwp hfirst => exact hnew ha hs hfirst rfl
  case createTracker hfirst => exact hnew ha hs hfirst rfl
  case accept b s hb hX hp hops hc hl hin =>
    have haN : a ≠ m.d.nextAddr := by
      obtain ⟨q, hq, -⟩ := h.peers.listed a ha
      exact Nat.ne_of_lt (h.peers.fresh a q hq)
    refine .inl (hkeep (q := { s with peer := some m.d.nextAddr }) hb ha ?_ fun _ => rfl)
    rw [← hs]
    simp only [update_apply, if_neg haN]
  case pair b s id u x hb hp hc hl hin hnew hx hserve hon opened hopened =>
    have haN : a ≠ m.d.nextAddr := by
      obtain ⟨q, hq, -⟩ := h.peers.listed a ha
      exact Nat.ne_of_lt (h.peers.fresh a q hq)
    refine .inl (hkeep (q := { s with peer := some m.d.nextAddr }) hb ha ?_ fun _ => rfl)
    rw [← hs]
    simp only [update_apply, if_neg haN]
  case handOver b s u hb _ _ _ _ _ => exact .inl (hkeep hb ha hs fun _ => rfl)
  case answered b s hb _ => exact .inl (hkeep hb ha hs fun _ => rfl)
  case exits b s hb => exact .inl (hkeep hb ha hs fun _ => rfl)
  case gather b s ps hb _ _ => exact .inl (hkeep hb ha hs fun _ => rfl)
  case enqueueLink b s q out ev L _ hb _ _ _ _ _ _ _ _ _ =>
    exact .inl (hkeep hb ha hs fun _ => rfl)
  case drained b s ps out _ hb _ _ _ _ _ => exact .inl (hkeep hb ha hs fun _ => rfl)
  case flushed b s ev L _ hb _ _ _ _ _ _ _ _ _ _ _ => exact .inl (hkeep hb ha hs fun _ => rfl)
  case wrteJdwp b r s q p t x _ hb _ _ _ _ =>
    exact .inl (hkeep (q := { s with pass := true }) hb ha hs fun _ => rfl)
  case wrteTracker b r s q p t x _ hb _ _ _ _ =>
    exact .inl (hkeep (q := { s with needUpdate := false }) hb ha hs fun _ => rfl)
  all_goals exact .inl ⟨ha, s', hs, rfl⟩

end Changes

/-! ## The invariant -/

/-- The ids of the sockets, of the streams and of the packets sent. -/
structure Ids (D : Daemon) : Prop where
  nonzero : ∀ a s, a ∈ D.localSocketList → D.sockets a = some s → s.id ≠ 0
  stream : ∀ r a l rid t, .stream r a l rid t ∈ D.trace → r < D.nextAddr ∧ a < D.nextAddr ∧
    l ≠ 0 ∧ ∀ s, a ∈ D.localSocketList → D.sockets a = some s → s.id = l
  sent : ∀ t r p, .sent t (some r) p ∈ D.trace → Known D r p.msg.arg0 p.msg.arg1 t
  single : ∀ t p, .sent t none p ∈ D.trace → p.msg.command ≠ aWrte ∧
    (p.msg.command = aClse → .refused t p.msg.arg1 ∈ D.trace)

/-- The condition: no local end is closed first, no host addresses another's stream, and the
counter has not wrapped. -/
def Plain (e : Event) (D : Daemon) : Prop :=
  ¬LocalClose e D ∧ ¬Misaddressed e D ∧ D.localSocketNextId ≠ 0

section Invariant

variable {e : Event} {D₀ D : Daemon} {m m' : Moment}

lemma known_mono {D' : Daemon} {r : Addr} {l rid : UInt32} {t : TAddr} (h : Known D r l rid t)
    (htrace : D.trace <:+ D'.trace) : Known D' r l rid t := by
  obtain ⟨a, ha⟩ := h
  exact ⟨a, htrace.subset ha⟩

/-- The ends of a stream are known under their ids. -/
lemma known_of_pair {t : TAddr} {via : Option Addr} {p : Apacket} {a r : Addr} {s q : Asocket}
    (h : Wf m) (hf : FromStream e D₀ m t via p a r s q) (hmis : ¬Misaddressed e D₀) :
    Known m.d r p.msg.arg0 p.msg.arg1 t := by
  obtain ⟨hdest, ht⟩ := hf.dest.resolve_right hmis
  obtain ⟨-, q', hq', hback, hpairs⟩ := h.peers.paired a s r hf.whole hf.live hf.peer
  rw [hf.other, Option.some.injEq] at hq'
  subst hq'
  have hlocal : s.ops.isLocal = true := by
    rw [hf.remote] at hpairs
    cases hops : s.ops <;> simp_all [SocketOps.pairs, SocketOps.isLocal]
  have hclosing : s.closing = false := by
    by_contra hc
    rw [Bool.not_eq_false] at hc
    obtain ⟨s', hs', -, -, hp'⟩ := h.peers.flushing a (h.peers.inClosing a s hf.whole hf.live hc)
    rw [hf.live, Option.some.injEq] at hs'
    rw [← hs', hf.peer] at hp'
    cases hp'
  have hmem := h.peers.inList a s hf.whole hf.live hlocal hclosing
  rw [hf.arg0, hdest]
  exact ⟨a, h.names.named r q a s t hf.other hf.remote hback hf.live hmem ht⟩

/-- A change keeps the ids. -/
theorem ids_effect (he : Effect e D₀ m m') (h : Wf m) (hC : Plain e D₀) (hids : Ids m.d) :
    Ids m'.d := by
  obtain ⟨hlocal, hmis, hid⟩ := hC
  refine ⟨?_, ?_, ?_, ?_⟩
  · intro a s ha hs
    rcases listed_cases he h ha hs with ⟨ha', s', hs', heq⟩ | ⟨-, heq⟩
    · rw [heq]
      exact hids.nonzero a s' ha' hs'
    · rw [heq]
      exact hid
  · intro r a l rid t hmem
    have hle := nextAddr_le he
    have hold : ∀ {s'}, a < m.d.nextAddr → a ∈ m'.d.localSocketList → m'.d.sockets a = some s' →
        a ∈ m.d.localSocketList ∧ ∃ s, m.d.sockets a = some s ∧ s'.id = s.id := by
      intro s' hlt ha hs
      refine (listed_cases he h ha hs).resolve_right fun hnew => ?_
      exact absurd hlt (hnew.1 ▸ Nat.lt_irrefl _)
    rcases stream_cases he hmem with hmem | ⟨hr, hN, ha, s, hs, heq⟩
    · obtain ⟨hrN, haN, hl, hsame⟩ := hids.stream r a l rid t hmem
      refine ⟨hrN.trans_le hle, haN.trans_le hle, hl, fun s' ha' hs' => ?_⟩
      obtain ⟨ha'', s'', hs'', heq⟩ := hold haN ha' hs'
      rw [heq]
      exact hsame s'' ha'' hs''
    · have haN := h.peers.fresh a s hs
      refine ⟨?_, haN.trans_le hle, ?_, fun s' ha' hs' => ?_⟩
      · rw [hr, hN]
        exact Nat.lt_succ_self _
      · rw [← heq]
        exact hids.nonzero a s ha hs
      · obtain ⟨-, s'', hs'', heq'⟩ := hold haN ha' hs'
        rw [hs, Option.some.injEq] at hs''
        rw [heq', ← hs'', heq]
  · intro t r p hmem
    rcases sent_cases he hmem with hmem | ⟨-, habout⟩ | ⟨a, r', s, q, hfrom⟩
    · exact known_mono (hids.sent t r p hmem) he.trace_suffix
    · exact known_mono (habout.2.2.2.resolve_right hlocal) he.trace_suffix
    · cases hfrom.via
      exact known_mono (known_of_pair h hfrom hmis) he.trace_suffix
  · intro t p hmem
    rcases sent_cases he hmem with hmem | ⟨hcmd, habout⟩ | ⟨a, r', s, q, hfrom⟩
    · obtain ⟨hcmd, hclse⟩ := hids.single t p hmem
      exact ⟨hcmd, fun hc => he.trace_suffix.subset (hclse hc)⟩
    · exact ⟨hcmd, fun hc => he.trace_suffix.subset (habout.1 hc)⟩
    · cases hfrom.via

lemma ids_kept : Kept Plain fun m => Ids m.d :=
  fun _ _ _ _ hC _ _ _ hwf hids he => ids_effect he hwf hC hids

end Invariant

/-! ## The packets on the wire -/

/-- The packets sent for the streams carry the ids of the two ends, and 0 stands for a stream
that never was. -/
structure WellAddressed (D : Daemon) : Prop where
  /-- What is sent on behalf of a remote socket carries the ids under which it was paired. -/
  paired : ∀ t r p, .sent t (some r) p ∈ D.trace → ∃ a l rid, .stream r a l rid t ∈ D.trace ∧
    l ≠ 0 ∧ p.msg.arg0 = l ∧ p.msg.arg1 = rid
  /-- The local id of a stream is the id the socket has for as long as it is listed. -/
  listed : ∀ r a l rid t s, .stream r a l rid t ∈ D.trace → a ∈ D.localSocketList →
    D.sockets a = some s → s.id = l
  wrte : ∀ t via p, .sent t via p ∈ D.trace → p.msg.command = aWrte → via ≠ none
  clse : ∀ t p, .sent t none p ∈ D.trace → p.msg.command = aClse →
    .refused t p.msg.arg1 ∈ D.trace
  /-- The id 0 answers an `A_OPEN` that created no socket. -/
  zero : ∀ t via p, .sent t via p ∈ D.trace → p.msg.command = aClse → p.msg.arg0 = 0 →
    .refused t p.msg.arg1 ∈ D.trace

/-- As long as every step is plain, the packets are addressed well. -/
theorem well_addressed {D : Daemon} (h : ReachableBy Plain D) : WellAddressed D := by
  have hids : Ids D := by
    refine @Kept.reachableBy _ Plain (fun m => Ids m.d) ids_kept
      (fun config fds inUse D hmain => ?_) h
    obtain ⟨L, O, I, rfl⟩ := adbMain_eq hmain
    exact ⟨fun a s ha => absurd ha List.not_mem_nil, fun r a l rid t ho => absurd ho (by simp),
      fun t r p ho => absurd ho (by simp), fun t p ho => absurd ho (by simp)⟩
  have hpaired : ∀ t r p, .sent t (some r) p ∈ D.trace → ∃ a l rid,
      .stream r a l rid t ∈ D.trace ∧ l ≠ 0 ∧ p.msg.arg0 = l ∧ p.msg.arg1 = rid := by
    intro t r p hmem
    obtain ⟨a, ha⟩ := hids.sent t r p hmem
    exact ⟨a, _, _, ha, (hids.stream _ _ _ _ _ ha).2.2.1, rfl, rfl⟩
  refine ⟨hpaired, ?_, ?_, ?_, ?_⟩
  · intro r a l rid t s hmem ha hs
    exact (hids.stream r a l rid t hmem).2.2.2 s ha hs
  · rintro t via p hmem hcmd rfl
    exact (hids.single t p hmem).1 hcmd
  · intro t p hmem hcmd
    exact (hids.single t p hmem).2 hcmd
  · intro t via p hmem hcmd hzero
    cases via with
    | none => exact (hids.single t p hmem).2 hcmd
    | some r =>
      obtain ⟨a, l, rid, -, hl, heq, -⟩ := hpaired t r p hmem
      exact absurd (heq.symm.trans hzero) hl

/-- As long as there is no socket, a step is plain. -/
lemma plain_of_no_socket {e : Event} {D : Daemon} (h : Wf { d := D }) (hN : D.nextAddr = 0)
    (hid : D.localSocketNextId ≠ 0) : Plain e D := by
  have hnone : ∀ a s, D.sockets a ≠ some s := by
    intro a s hs
    have hlt : a < D.nextAddr := h.peers.fresh a s hs
    rw [hN] at hlt
    exact absurd hlt (Nat.not_lt_zero a)
  refine ⟨?_, ?_, hid⟩
  · rintro ⟨a, s, r, q, hs, -⟩
    exact hnone a s hs
  · rintro ⟨t, p, a, s, r, q, -, -, hs, -⟩
    exact hnone a s hs

/-- A packet sent on behalf of the socket 1. -/
def isSentFor (c : Apacket → Bool) : Obs → Bool
  | .sent 0 (some 1) p => c p
  | _ => false

lemma sent_of_any {D : Daemon} {c : Apacket → Bool} (h : D.trace.any (isSentFor c) = true) :
    ∃ p, .sent 0 (some 1) p ∈ D.trace ∧ c p = true := by
  obtain ⟨o, ho, hc⟩ := List.any_eq_true.mp h
  unfold isSentFor at hc
  split at hc
  · exact ⟨_, ho, hc⟩
  · cases hc

/-- A shell is opened and greeted with its ids. -/
theorem well_addressed_shell : ∃ D, ReachableBy Plain D ∧
    (∃ p, .sent 0 (some 1) p ∈ D.trace ∧ p.msg.command = aOkay) ∧ WellAddressed D := by
  obtain ⟨D, hD, hs⟩ := @exists_reachableBy Plain Bool unlocked [3, 4, 6, 7, 8, 9]
    (fun _ => false) openShell
    (fun _ D => decide (D.nextAddr = 0) && decide (D.localSocketNextId ≠ 0))
    (fun D => D.trace.any (isSentFor fun p => p.msg.command = aOkay)) true
    (fun e D hwf hc => by
      rw [Bool.and_eq_true, decide_eq_true_eq, decide_eq_true_eq] at hc
      exact plain_of_no_socket hwf hc.1 hc.2)
    (by decide +kernel)
  obtain ⟨p, hp, hcmd⟩ := sent_of_any hs
  exact ⟨D, hD, ⟨p, hp, of_decide_eq_true hcmd⟩, well_addressed hD⟩

/-- The host closes the shell, and is answered with an `A_CLSE` whose `arg0` is 0. -/
theorem shell_closed_with_zero : ∃ D, Reachable D ∧ ¬WellAddressed D := by
  obtain ⟨D, hD, hs⟩ := @exists_reachable Bool unlocked [3, 4, 6, 7, 8, 9]
    (fun _ => false) (openShell ++ carry 0 11 (packetOf aClse 7 1 []) {})
    (fun D => D.trace.any (isSentFor fun p => p.msg.arg0 = 0)) true (by decide +kernel)
  obtain ⟨p, hp, hzero⟩ := sent_of_any hs
  refine ⟨D, hD, fun hgood => ?_⟩
  obtain ⟨a, l, rid, -, hl, heq, -⟩ := hgood.paired 0 1 p hp
  exact hl (heq.symm.trans (of_decide_eq_true hzero))

end Adbd.StreamIds
