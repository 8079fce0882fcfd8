import Adbd.Effects.Step

/-!
# The kinds of peers

A socket in the socket lists never has another such socket for a peer, not even for a moment:
while pairs are made and taken apart a link may be one-sided or lead to a freed socket, but one
of the two ends is always a remote or a smart socket.
-/

namespace Adbd

open Function Transition Relation

/-- Peers are of different kinds, and no link leads to an address not handed out yet. -/
def Daemon.Typed (D : Daemon) : Prop :=
  ∀ a s p, D.sockets a = some s → s.peer = some p →
    p < D.nextAddr ∧ ∀ q, D.sockets p = some q → q.ops.isLocal = !s.ops.isLocal

/-- Sockets are freed, links are cut and notify functions replaced, but there is no new socket
and no new link. -/
structure Shrinks (D D' : Daemon) : Prop where
  nextAddr : D.nextAddr ≤ D'.nextAddr
  socket : ∀ a s', D'.sockets a = some s' → ∃ s, D.sockets a = some s ∧
    s'.ops.isLocal = s.ops.isLocal ∧ (s'.peer = none ∨ s'.peer = s.peer)

namespace Shrinks

variable {D D' D'' : Daemon} {a : Addr} {s : Asocket}

lemma refl (D : Daemon) : Shrinks D D := ⟨le_refl _, fun _ s hs => ⟨s, hs, rfl, .inr rfl⟩⟩

lemma trans (h : Shrinks D D') (h' : Shrinks D' D'') : Shrinks D D'' := by
  refine ⟨h.nextAddr.trans h'.nextAddr, fun a s'' hs'' => ?_⟩
  obtain ⟨s', hs', hkind', hpeer'⟩ := h'.socket a s'' hs''
  obtain ⟨s, hs, hkind, hpeer⟩ := h.socket a s' hs'
  refine ⟨s, hs, hkind'.trans hkind, ?_⟩
  rcases hpeer' with hnone | hsame
  · exact .inl hnone
  · rw [hsame]
    exact hpeer

/-- Changes that are not about sockets. -/
lemma of_eq (hsockets : D'.sockets = D.sockets) (hnext : D'.nextAddr = D.nextAddr) :
    Shrinks D D' :=
  ⟨hnext.ge, fun _ s hs => ⟨s, hsockets ▸ hs, rfl, .inr rfl⟩⟩

/-- Rewriting a socket, which keeps its kind and at most loses its peer. -/
lemma assign (hs : D.sockets a = some s) {s' : Asocket}
    (hsockets : D'.sockets = update D.sockets a (some s')) (hnext : D'.nextAddr = D.nextAddr)
    (hkind : s'.ops.isLocal = s.ops.isLocal) (hpeer : s'.peer = none ∨ s'.peer = s.peer) :
    Shrinks D D' := by
  refine ⟨hnext.ge, fun b t hb => ?_⟩
  rw [hsockets] at hb
  by_cases hba : b = a
  · subst hba
    rw [update_self, Option.some.injEq] at hb
    subst hb
    exact ⟨s, hs, hkind, hpeer⟩
  · exact ⟨t, (update_of_ne hba ..).symm.trans hb, rfl, .inr rfl⟩

lemma free (hsockets : D'.sockets = update D.sockets a none) (hnext : D'.nextAddr = D.nextAddr) :
    Shrinks D D' := by
  refine ⟨hnext.ge, fun b t hb => ?_⟩
  rw [hsockets] at hb
  by_cases hba : b = a
  · rw [hba, update_self] at hb
    cases hb
  · exact ⟨t, (update_of_ne hba ..).symm.trans hb, rfl, .inr rfl⟩

/-- What does not grow stays typed. -/
lemma typed (h : Shrinks D D') (hD : D.Typed) : D'.Typed := by
  intro a s' p hs' hp
  obtain ⟨s, hs, hkind, hpeer⟩ := h.socket a s' hs'
  have hsp : s.peer = some p := by
    rcases hpeer with hnone | hsame
    · rw [hnone] at hp
      cases hp
    · rw [← hsame, hp]
  obtain ⟨hlt, htyped⟩ := hD a s p hs hsp
  refine ⟨hlt.trans_le h.nextAddr, fun q' hq' => ?_⟩
  obtain ⟨q, hq, hqkind, -⟩ := h.socket p q' hq'
  rw [hqkind, hkind]
  exact htyped q hq

end Shrinks

/-! ## Every change keeps the kinds apart -/

section Changes

variable {e : Event} {D₀ D : Daemon} {m m' : Moment}

/-- A new socket without a peer. -/
lemma typed_create (h : D.Typed) {s : Asocket} (hp : s.peer = none) {D' : Daemon}
    (hsockets : D'.sockets = update D.sockets D.nextAddr (some s))
    (hnext : D'.nextAddr = D.nextAddr + 1) : D'.Typed := by
  intro a t p ha hpeer
  rw [hsockets] at ha
  by_cases haN : a = D.nextAddr
  · rw [haN, update_self, Option.some.injEq] at ha
    rw [← ha, hp] at hpeer
    cases hpeer
  · rw [update_of_ne haN] at ha
    obtain ⟨hlt, htyped⟩ := h a t p ha hpeer
    refine ⟨hnext ▸ Nat.lt_succ_of_lt hlt, fun q hq => htyped q ?_⟩
    rw [hsockets, update_of_ne (Nat.ne_of_lt hlt)] at hq
    exact hq

/-- A socket of the lists and a new one of the other kind become each other's peers. -/
lemma typed_pair (h : D.Typed) (hfresh : ∀ a s, D.sockets a = some s → a < D.nextAddr)
    {a : Addr} {s q : Asocket} (hs : D.sockets a = some s) (hq : q.peer = some a)
    (hkind : q.ops.isLocal = !s.ops.isLocal) {D' : Daemon}
    (hsockets : D'.sockets = update (update D.sockets D.nextAddr (some q)) a
      (some { s with peer := some D.nextAddr }))
    (hnext : D'.nextAddr = D.nextAddr + 1) : D'.Typed := by
  have ha : a < D.nextAddr := hfresh a s hs
  have hself : D'.sockets a = some { s with peer := some D.nextAddr } := by
    rw [hsockets, update_self]
  have hnew : D'.sockets D.nextAddr = some q := by
    rw [hsockets, update_of_ne (Nat.ne_of_gt ha), update_self]
  have hother : ∀ b, b ≠ a → b ≠ D.nextAddr → D'.sockets b = D.sockets b := by
    intro b hba hbN
    rw [hsockets, update_of_ne hba, update_of_ne hbN]
  intro b t p hb hp
  by_cases hba : b = a
  · subst hba
    cases hself.symm.trans hb
    cases hp
    refine ⟨hnext ▸ Nat.lt_succ_self _, fun u hu => ?_⟩
    cases hnew.symm.trans hu
    exact hkind
  · by_cases hbN : b = D.nextAddr
    · subst hbN
      cases hnew.symm.trans hb
      cases hq.symm.trans hp
      refine ⟨hnext ▸ Nat.lt_succ_of_lt ha, fun u hu => ?_⟩
      cases hself.symm.trans hu
      simp [hkind]
    · rw [hother b hba hbN] at hb
      obtain ⟨hlt, htyped⟩ := h b t p hb hp
      refine ⟨hnext ▸ Nat.lt_succ_of_lt hlt, fun u hu => ?_⟩
      by_cases hpa : p = a
      · subst hpa
        cases hself.symm.trans hu
        exact htyped s hs
      · rw [hother p hpa (Nat.ne_of_lt hlt)] at hu
        exact htyped u hu

lemma Effect.typed (he : Effect e D₀ m m') (h : Wf m) (hD : m.d.Typed) : m'.d.Typed := by
  have hfresh := h.peers.fresh
  cases he
  case createFd => exact typed_create hD rfl rfl rfl
  case createJdwp => exact typed_create hD rfl rfl rfl
  case createTracker => exact typed_create hD rfl rfl rfl
  case accept a s hs ha hp hops hclosing hl hin =>
    exact typed_pair hD hfresh hs rfl (by rw [hops]; rfl) rfl rfl
  case pair a s id t x hs hp hclosing hl hin hnew hx hserve honline opened hopened =>
    have hlocal : s.ops.isLocal = true := by
      obtain ⟨s', hs', -, hlocal⟩ := h.peers.listed a hl
      cases hs.symm.trans hs'
      exact hlocal
    exact typed_pair hD hfresh hs rfl (by rw [hlocal]; rfl) rfl rfl
  case unpeer a s hs ha => exact Shrinks.typed (.assign hs rfl rfl rfl (.inl rfl)) hD
  case unname a s hs hl ha => exact Shrinks.typed (.assign hs rfl rfl rfl (.inr rfl)) hD
  case free => exact Shrinks.typed (.free rfl rfl) hD
  case freeTracker => exact Shrinks.typed (.free rfl rfl) hD
  case dropRemote => exact Shrinks.typed (.free rfl rfl) hD
  case retire a s i ev L hs ha hops hp hclosing hq hin hset hev hread =>
    exact Shrinks.typed (.assign hs rfl rfl rfl (.inr rfl)) hD
  case handOver a s t hs ha hops hclosing hl hin =>
    exact Shrinks.typed (.assign hs rfl rfl (by rw [hops]; rfl) (.inl rfl)) hD
  case answered a s hs hops =>
    exact Shrinks.typed (.assign hs rfl rfl (by rw [hops]; rfl) (.inr rfl)) hD
  case exits a s hs => exact Shrinks.typed (.assign hs rfl rfl rfl (.inr rfl)) hD
  case gather a s ps hs hops hclosing =>
    exact Shrinks.typed (.assign hs rfl rfl rfl (.inr rfl)) hD
  case enqueueLink a s p out ev L ha hs hops hclosing hout hin hset hev hread hcause hblock =>
    exact Shrinks.typed (.assign hs rfl rfl rfl (.inr rfl)) hD
  case drained a s ps out ha hs hops hbytes hlen hstuck hleft =>
    exact Shrinks.typed (.assign hs rfl rfl rfl (.inr rfl)) hD
  case flushed a s ev L ha hs hops hclosing hin hset hev hread hwrite hevents howed hcause hbef =>
    exact Shrinks.typed (.assign hs rfl rfl rfl (.inr rfl)) hD
  case wrteJdwp a r s q p t x ha hs hops hp hto hpass =>
    exact Shrinks.typed (.assign hs rfl rfl rfl (.inr rfl)) hD
  case wrteTracker a r s q p t x ha hs hops hp hto hneed =>
    exact Shrinks.typed (.assign hs rfl rfl rfl (.inr rfl)) hD
  all_goals exact (Shrinks.of_eq rfl rfl).typed hD

/-- Whatever happens in a step from a reachable state, peers are of different kinds. -/
theorem typed_of_path (h : Daemon.Reachable D)
    (hpath : ReflTransGen (Effect e D) { d := D } m) : m.d.Typed := by
  have hkept : Kept (fun _ _ => True) fun m => m.d.Typed :=
    fun _ _ _ _ _ _ _ _ hwf hm he => he.typed hwf hm
  have hD : D.Typed := by
    refine hkept.reachable (fun config fds inUse D hmain => ?_) h
    obtain ⟨L, O, I, rfl⟩ := adbMain_eq hmain
    intro a s p ha
    cases ha
  exact hkept.path trivial h.wf hD hpath

end Changes

end Adbd
