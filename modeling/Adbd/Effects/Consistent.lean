import Adbd.Effects.LoopState

/-!
# The consistency of a moment

Every elementary change keeps the peer graph, the event loop and the registration queue
consistent.  This is what the descriptions of the code's functions rely on when they say which
changes a function makes.
-/

namespace Adbd

open Function FlagWord

/-! ## Registration -/

/-- How many threads of a transport are running. -/
def Atransport.running (x : Atransport) : ℕ :=
  (if x.output = .done then 0 else 1) + (if x.input = .done then 0 else 1)

/-- The transports `T` with the registration queue `R`, while the packet of `H` is handled. -/
structure QueueWf (T : TAddr → Option Atransport) (N : TAddr) (R : List (TAddr × RegAction))
    (L : Loop FdeId) (H : Option (TAddr × Option Apacket)) : Prop where
  fresh : ∀ t x, T t = some x → t < N
  refs : ∀ t x, T t = some x → x.refCount = x.running
  queued : ∀ t a, (t, a) ∈ R → ∃ x, T t = some x ∧ x.running = 0
  once : (R.map Prod.fst).Nodup
  waiting : ∀ t x, (t, .register) ∈ R → T t = some x →
    x.disconnects = [] ∧ x.toMain = [] ∧ ¬L.Installed (.transport t)
  served : ∀ t p, H = some (t, some p) → (t, .register) ∉ R ∧ ∃ x, T t = some x

namespace QueueWf

variable {T : TAddr → Option Atransport} {N : TAddr} {R : List (TAddr × RegAction)}
  {L L' : Loop FdeId} {H : Option (TAddr × Option Apacket)} {t : TAddr} {x x' : Atransport}

/-- Assigning to a transport's fields, its threads aside. -/
lemma assign {y : Atransport} (h : QueueWf T N R L H) (hx : T t = some x)
    (href : y.refCount = x.refCount) (hrun : y.running = x.running)
    (hwait : (t, .register) ∈ R → x.disconnects = [] → x.toMain = [] →
      y.disconnects = [] ∧ y.toMain = []) :
    QueueWf (update T t (some y)) N R L H := by
  have hwaiting := h.waiting t x
  have hqueued := h.queued
  refine { h with fresh := ?_, refs := ?_, queued := ?_, waiting := ?_, served := ?_ }
  · intro u z hu
    have := h.fresh u
    grind [update_apply]
  · grind [h.refs, update_apply]
  · grind [update_apply]
  · intro u z hu hy
    by_cases hut : u = t
    · subst hut
      rw [update_self, Option.some.injEq] at hy
      subst hy
      obtain ⟨hd, hm, hin⟩ := hwaiting hu hx
      obtain ⟨hd', hm'⟩ := hwait hu hd hm
      exact ⟨hd', hm', hin⟩
    · rw [update_of_ne hut] at hy
      exact h.waiting u z hu hy
  · grind [h.served, update_apply]

/-- The event loop changes, and installs no transport's `fdevent`. -/
lemma loop (h : QueueWf T N R L H)
    (hin : ∀ t, L'.Installed (.transport t) → L.Installed (.transport t)) :
    QueueWf T N R L' H :=
  { h with waiting := fun t x ht hx =>
      ⟨(h.waiting t x ht hx).1, (h.waiting t x ht hx).2.1,
        fun hL => (h.waiting t x ht hx).2.2 (hin t hL)⟩ }

/-- Nothing is handled any more. -/
lemma idle (h : QueueWf T N R L H) : QueueWf T N R L none :=
  { h with served := fun _ _ hp => by cases hp }

/-- A packet comes in, so its transport is not waiting to be registered. -/
lemma receive {p : Apacket} {rest : List Apacket} (h : QueueWf T N R L H) (hx : T t = some x)
    (hp : x.toMain = p :: rest) :
    QueueWf (update T t (some { x with toMain := rest })) N R L (some (t, some p)) := by
  have hnot : (t, RegAction.register) ∉ R := by
    intro ht
    obtain ⟨-, hm, -⟩ := h.waiting t x ht hx
    rw [hp] at hm
    cases hm
  have h' : QueueWf (update T t (some { x with toMain := rest })) N R L H :=
    h.assign hx rfl rfl fun ht => absurd ht hnot
  refine { h' with served := ?_ }
  intro u q hu
  cases hu
  exact ⟨hnot, _, update_self ..⟩

/-- A new transport is queued for registration. -/
lemma register (h : QueueWf T N R L H) {x : Atransport} (href : x.refCount = 0)
    (hrun : x.running = 0) (hd : x.disconnects = []) (hm : x.toMain = [])
    (hin : ¬L.Installed (.transport N)) :
    QueueWf (update T N (some x)) (N + 1) (R ++ [(N, .register)]) L H := by
  have hN : ∀ u y, T u = some y → u ≠ N := fun u y hu => Nat.ne_of_lt (h.fresh u y hu)
  have hR : ∀ u a, (u, a) ∈ R → u ≠ N := by
    intro u a hu
    obtain ⟨y, hy, -⟩ := h.queued u a hu
    exact hN u y hy
  refine ⟨?_, ?_, ?_, ?_, ?_, ?_⟩
  · intro u y hu
    have := h.fresh u
    grind [update_apply]
  · grind [h.refs, update_apply]
  · intro u a hu
    rw [List.mem_append, List.mem_singleton, Prod.mk.injEq] at hu
    rcases hu with hu | ⟨rfl, -⟩
    · obtain ⟨y, hy, hrun⟩ := h.queued u a hu
      exact ⟨y, by rw [update_of_ne (hR u a hu), hy], hrun⟩
    · exact ⟨x, update_self .., hrun⟩
  · rw [List.map_append, List.nodup_append]
    refine ⟨h.once, by simp, ?_⟩
    intro u hu w hw
    obtain ⟨⟨u', a⟩, hmem, rfl⟩ := List.mem_map.mp hu
    rw [List.map_cons, List.map_nil, List.mem_singleton] at hw
    rw [hw]
    exact hR u' a hmem
  · intro u y hu hy
    rw [List.mem_append, List.mem_singleton, Prod.mk.injEq] at hu
    rcases hu with hu | ⟨rfl, -⟩
    · rw [update_of_ne (hR u _ hu)] at hy
      exact h.waiting u y hu hy
    · rw [update_self, Option.some.injEq] at hy
      subst hy
      exact ⟨hd, hm, hin⟩
  · intro u p hu
    obtain ⟨hnot, y, hy⟩ := h.served u p hu
    refine ⟨?_, y, by rw [update_of_ne (hN u y hy), hy]⟩
    rw [List.mem_append, List.mem_singleton, Prod.mk.injEq]
    rintro (hu | ⟨rfl, -⟩)
    · exact hnot hu
    · exact hN _ y hy rfl

/-- The head of the queue is taken off, and its transport started or about to be freed. -/
lemma pop {a : RegAction} (h : QueueWf T N ((t, a) :: R) L H) (hx : T t = some x)
    (href : x'.refCount = x'.running)
    (hin : ∀ u, u ≠ t → L'.Installed (.transport u) → L.Installed (.transport u)) :
    QueueWf (update T t (some x')) N R L' H := by
  have honce := h.once
  rw [List.map_cons, List.nodup_cons] at honce
  have hne : ∀ u b, (u, b) ∈ R → u ≠ t := by
    rintro u b hu rfl
    exact honce.1 (List.mem_map.mpr ⟨_, hu, rfl⟩)
  refine ⟨?_, ?_, ?_, honce.2, ?_, ?_⟩
  · intro u y hu
    have := h.fresh u
    grind [update_apply]
  · grind [h.refs, update_apply]
  · intro u b hu
    obtain ⟨y, hy, hrun⟩ := h.queued u b (List.mem_cons_of_mem _ hu)
    exact ⟨y, by rw [update_of_ne (hne u b hu), hy], hrun⟩
  · intro u y hu hy
    rw [update_of_ne (hne u _ hu)] at hy
    obtain ⟨hd, hm, hL⟩ := h.waiting u y (List.mem_cons_of_mem _ hu) hy
    exact ⟨hd, hm, fun hL' => hL (hin u (hne u _ hu) hL')⟩
  · intro u p hu
    obtain ⟨hnot, y, hy⟩ := h.served u p hu
    refine ⟨fun hmem => hnot (List.mem_cons_of_mem _ hmem), ?_⟩
    by_cases hut : u = t
    · exact ⟨x', by rw [hut, update_self]⟩
    · exact ⟨y, by rw [update_of_ne hut, hy]⟩

/-- A transport that is not queued is freed. -/
lemma free (h : QueueWf T N R L none) (hR : ∀ a, (t, a) ∉ R) :
    QueueWf (update T t none) N R L none := by
  have hne : ∀ u b, (u, b) ∈ R → u ≠ t := by
    rintro u b hu rfl
    exact hR b hu
  refine ⟨?_, ?_, ?_, h.once, ?_, ?_⟩
  · intro u y hu
    have := h.fresh u
    grind [update_apply]
  · grind [h.refs, update_apply]
  · intro u b hu
    obtain ⟨y, hy, hrun⟩ := h.queued u b hu
    exact ⟨y, by rw [update_of_ne (hne u b hu), hy], hrun⟩
  · intro u y hu hy
    rw [update_of_ne (hne u _ hu)] at hy
    exact h.waiting u y hu hy
  · intro u p hu
    cases hu

/-- A thread makes a step; the last one to end queues the removal. -/
lemma thread {R' : List (TAddr × RegAction)} (h : QueueWf T N R L none) (hx : T t = some x)
    (hrun : x.running ≠ 0) (href : x'.refCount = x'.running)
    (hR : R' = R ∨ R' = R ++ [(t, .remove)] ∧ x'.running = 0)
    (hin : ∀ u, L'.Installed (.transport u) → L.Installed (.transport u)) :
    QueueWf (update T t (some x')) N R' L' none := by
  have hne : ∀ u b, (u, b) ∈ R → u ≠ t := by
    rintro u b hu rfl
    obtain ⟨y, hy, hzero⟩ := h.queued u b hu
    rw [hx, Option.some.injEq] at hy
    exact hrun (hy ▸ hzero)
  have hmem : ∀ u b, (u, b) ∈ R' → (u, b) ∈ R ∨ u = t ∧ b = .remove ∧ x'.running = 0 := by
    intro u b hu
    rcases hR with rfl | ⟨rfl, hzero⟩
    · exact .inl hu
    · rw [List.mem_append, List.mem_singleton, Prod.mk.injEq] at hu
      rcases hu with hu | ⟨rfl, rfl⟩
      · exact .inl hu
      · exact .inr ⟨rfl, rfl, hzero⟩
  refine ⟨?_, ?_, ?_, ?_, ?_, ?_⟩
  · intro u y hu
    have := h.fresh u
    grind [update_apply]
  · grind [h.refs, update_apply]
  · intro u b hu
    rcases hmem u b hu with hu | ⟨rfl, -, hzero⟩
    · obtain ⟨y, hy, hyrun⟩ := h.queued u b hu
      exact ⟨y, by rw [update_of_ne (hne u b hu), hy], hyrun⟩
    · exact ⟨x', update_self .., hzero⟩
  · rcases hR with rfl | ⟨rfl, -⟩
    · exact h.once
    · rw [List.map_append, List.nodup_append]
      refine ⟨h.once, by simp, ?_⟩
      intro u hu w hw
      obtain ⟨⟨u', b⟩, hu', rfl⟩ := List.mem_map.mp hu
      rw [List.map_cons, List.map_nil, List.mem_singleton] at hw
      rw [hw]
      exact hne u' b hu'
  · intro u y hu hy
    rcases hmem u _ hu with hu | ⟨-, hb, -⟩
    · rw [update_of_ne (hne u _ hu)] at hy
      obtain ⟨hd, hm, hL⟩ := h.waiting u y hu hy
      exact ⟨hd, hm, fun hL' => hL (hin u hL')⟩
    · cases hb
  · intro u p hu
    cases hu

end QueueWf

/-! ## What the threads do to the queue -/

section Threads

variable {t : TAddr} {x y : Atransport} {L M : Loop FdeId} {R S : List (TAddr × RegAction)}
  {D : Daemon} {packet : Option Apacket} {os : List Obs}

lemma Kick.running_eq (h : Kick t x L y M os) : y.running = x.running := by
  rw [h.frame]
  rfl

lemma Kick.refCount_eq (h : Kick t x L y M os) : y.refCount = x.refCount := by
  rw [h.frame]

/-- The last reference is the last thread's. -/
lemma Unref.running (h : Unref t x L R y M S os) (href : x.refCount = x.running + 1) :
    y.refCount = y.running ∧ (S = R ∨ S = R ++ [(t, .remove)] ∧ y.running = 0) := by
  cases h with
  | shared hne =>
    refine ⟨?_, .inl rfl⟩
    show x.refCount - 1 = x.running
    omega
  | last M os hlast _ _ =>
    have hz : x.running = 0 := by omega
    exact ⟨hz.symm, .inr ⟨rfl, hz⟩⟩
  | kicks z M N os os' hlast _ hkick _ =>
    have hz : z.running = 0 := by
      rw [hkick.running_eq]
      omega
    exact ⟨hz.symm, .inr ⟨rfl, hz⟩⟩

lemma OutputStep.running (h : OutputStep packet t D x y L R os) (href : x.refCount = x.running) :
    x.running ≠ 0 ∧ y.refCount = y.running ∧
      (R = D.registration ∨ R = D.registration ++ [(t, .remove)] ∧ y.running = 0) := by
  cases h with
  | greet p hpc => simp [Atransport.running, href, hpc]
  | push p hpc => simp [Atransport.running, href, hpc]
  | ended i hpc => simp [Atransport.running, href, hpc]
  | sync p hpc => simp [Atransport.running, href, hpc]
  | fail token i hpc =>
    rw [Atransport.running] at href ⊢
    rcases hpc with hpc | hpc | hpc <;> simp [href, hpc, Atransport.running]
  | test pc hpc hpc' =>
    rw [Atransport.running] at href ⊢
    rcases hpc with hpc | hpc <;> rcases hpc' with rfl | ⟨rfl, -⟩ <;>
      simp [href, hpc, Atransport.running]
  | lock hpc => simp [Atransport.running, href, hpc]
  | kick z L os hpc hkick =>
    have hz : z.input = x.input := by rw [hkick.frame]
    have hrefz := hkick.refCount_eq
    simp [Atransport.running, hrefz, href, hz, hpc]
  | unref z L R os hpc hunref =>
    have hx : x.running = Atransport.running { x with output := .done } + 1 := by
      simp [Atransport.running, hpc]
      omega
    obtain ⟨hz, hR⟩ := hunref.running (href.trans hx)
    exact ⟨by omega, hz, hR⟩

lemma InputStep.running (h : InputStep t D x y L R os) (href : x.refCount = x.running) :
    x.running ≠ 0 ∧ y.refCount = y.running ∧
      (R = D.registration ∨ R = D.registration ++ [(t, .remove)] ∧ y.running = 0) := by
  cases h with
  | take p rest hpc => simp [Atransport.running, href, hpc]
  | final p rest hpc => simp [Atransport.running, href, hpc]
  | eof hpc => simp [Atransport.running, href, hpc]
  | test pc hpc hpc' =>
    rw [Atransport.running] at href ⊢
    rcases hpc with hpc | hpc <;> rcases hpc' with rfl | ⟨rfl, -⟩ <;>
      simp [href, hpc, Atransport.running]
  | lock hpc => simp [Atransport.running, href, hpc]
  | kick z L os hpc hkick =>
    have hz : z.output = x.output := by rw [hkick.frame]
    have hrefz := hkick.refCount_eq
    simp [Atransport.running, hrefz, href, hz, hpc]
  | unref z L R os hpc hunref =>
    have hx : x.running = Atransport.running { x with input := .done } + 1 := by
      simp [Atransport.running, hpc]
    obtain ⟨hz, hR⟩ := hunref.running (href.trans hx)
    exact ⟨by omega, hz, hR⟩

end Threads

/-! ## The moment -/

/-- The disconnect lists of the transports. -/
def disconnectsOf (T : TAddr → Option Atransport) (t : TAddr) : Option (List Addr) :=
  (T t).map (·.disconnects)

/-- Which transports are alive. -/
def aliveOf (T : TAddr → Option Atransport) (t : TAddr) : Bool := (T t).isSome

/-- Peers are addresses that exist or existed, and the peer of a remote socket has the id
under which the two were paired for as long as it is in the list. -/
structure NamesWf (D : Daemon) : Prop where
  bounded : ∀ a s p, D.sockets a = some s → s.peer = some p → p < D.nextAddr
  named : ∀ r q a s t, D.sockets r = some q → q.ops = .remote → q.peer = some a →
    D.sockets a = some s → a ∈ D.localSocketList → q.transport = some t →
    .stream r a s.id q.id t ∈ D.trace

/-- Sockets only lose their peers and, outside the list, their ids; new ones are not remote. -/
lemma NamesWf.keep {D D' : Daemon} (h : NamesWf D) (htrace : ∀ o ∈ D.trace, o ∈ D'.trace)
    (hbound : ∀ a s p, D'.sockets a = some s → s.peer = some p → p < D'.nextAddr)
    (hsock : ∀ a s', D'.sockets a = some s' → D.nextAddr ≤ a ∧ s'.ops ≠ .remote ∨
      ∃ s, D.sockets a = some s ∧ (s'.id = s.id ∨ a ∉ D'.localSocketList) ∧
        (s'.ops = .remote → s.ops = .remote ∧ s'.id = s.id ∧ s'.transport = s.transport ∧
          (s'.peer = none ∨ s'.peer = s.peer)))
    (hlist : ∀ a ∈ D'.localSocketList, D.nextAddr ≤ a ∨ a ∈ D.localSocketList) :
    NamesWf D' := by
  refine ⟨hbound, ?_⟩
  intro r q a s t hr hrem hp ha hl ht
  rcases hsock r q hr with ⟨-, hne⟩ | ⟨q₀, hr₀, -, hkeep⟩
  · exact absurd hrem hne
  obtain ⟨hrem₀, hid, htr, hpeer⟩ := hkeep hrem
  have hp₀ : q₀.peer = some a := by
    rcases hpeer with hnone | hsame
    · rw [hnone] at hp
      cases hp
    · exact hsame.symm.trans hp
  have hlt := h.bounded r q₀ a hr₀ hp₀
  rcases hsock a s ha with ⟨hge, -⟩ | ⟨s₀, ha₀, hname, -⟩
  · exact absurd hlt (Nat.not_lt.mpr hge)
  rw [hname.resolve_right fun hno => hno hl, hid]
  have hl₀ := (hlist a hl).resolve_left fun hge => Nat.not_lt.mpr hge hlt
  exact htrace _ (h.named r q₀ a s₀ t hr₀ hrem₀ hp₀ ha₀ hl₀ (htr ▸ ht))

/-- Nothing happens to the sockets. -/
lemma NamesWf.same {D D' : Daemon} (h : NamesWf D) (htrace : ∀ o ∈ D.trace, o ∈ D'.trace)
    (hs : D'.sockets = D.sockets) (hl : D'.localSocketList = D.localSocketList)
    (hN : D'.nextAddr = D.nextAddr) : NamesWf D' := by
  refine h.keep htrace ?_ ?_ ?_
  · rw [hs, hN]
    exact h.bounded
  · intro a s ha
    rw [hs] at ha
    exact .inr ⟨s, ha, .inl rfl, fun hrem => ⟨hrem, rfl, rfl, .inr rfl⟩⟩
  · rw [hl]
    exact fun a ha => .inr ha

/-- One socket is rewritten or freed. -/
lemma NamesWf.rewrite {D D' : Daemon} {a : Addr} {s : Asocket} {o : Option Asocket}
    (h : NamesWf D) (htrace : ∀ o ∈ D.trace, o ∈ D'.trace)
    (hsock : D'.sockets = update D.sockets a o) (hs : D.sockets a = some s)
    (hN : D'.nextAddr = D.nextAddr)
    (hlist : ∀ b ∈ D'.localSocketList, b ∈ D.localSocketList)
    (ho : ∀ s', o = some s' → (s'.id = s.id ∨ a ∉ D'.localSocketList) ∧
      (s'.peer = none ∨ s'.peer = s.peer) ∧
      (s'.ops = .remote → s.ops = .remote ∧ s'.id = s.id ∧ s'.transport = s.transport)) :
    NamesWf D' := by
  refine h.keep htrace ?_ ?_ fun b hb => .inr (hlist b hb)
  · intro b q p hb hp
    rw [hN]
    rw [hsock, update_apply] at hb
    split at hb
    case isTrue hba =>
      rcases (ho q hb).2.1 with hnone | hsame
      · rw [hnone] at hp
        cases hp
      · exact h.bounded a s p hs (hsame ▸ hp)
    case isFalse => exact h.bounded b q p hb hp
  · intro b q hb
    right
    rw [hsock, update_apply] at hb
    split at hb
    case isTrue hba =>
      obtain ⟨hid, hpeer, hrem⟩ := ho q hb
      subst hba
      refine ⟨s, hs, hid, fun hr => ?_⟩
      obtain ⟨h₁, h₂, h₃⟩ := hrem hr
      exact ⟨h₁, h₂, h₃, hpeer⟩
    case isFalse => exact ⟨q, hb, .inl rfl, fun hrem => ⟨hrem, rfl, rfl, .inr rfl⟩⟩

/-- A new socket without a peer. -/
lemma NamesWf.create {D D' : Daemon} {s : Asocket} (h : NamesWf D) (htrace : D'.trace = D.trace)
    (hsock : D'.sockets = update D.sockets D.nextAddr (some s)) (hN : D'.nextAddr = D.nextAddr + 1)
    (hlist : D'.localSocketList = D.localSocketList ++ [D.nextAddr]) (hp : s.peer = none)
    (hops : s.ops ≠ .remote) : NamesWf D' := by
  refine h.keep (fun o ho => htrace ▸ ho) ?_ ?_ ?_
  · intro b q p hb hq
    rw [hN]
    rw [hsock, update_apply] at hb
    split at hb
    · rw [Option.some.injEq] at hb
      rw [← hb, hp] at hq
      cases hq
    · exact Nat.lt_succ_of_lt (h.bounded b q p hb hq)
  · intro b q hb
    rw [hsock, update_apply] at hb
    split at hb
    case isTrue hbN =>
      rw [Option.some.injEq] at hb
      exact .inl ⟨Nat.le_of_eq hbN.symm, hb ▸ hops⟩
    case isFalse => exact .inr ⟨q, hb, .inl rfl, fun hrem => ⟨hrem, rfl, rfl, .inr rfl⟩⟩
  · intro b hb
    rw [hlist, List.mem_append, List.mem_singleton] at hb
    rcases hb with hb | rfl
    · exact .inr hb
    · exact .inl (le_refl _)

/-- The consistency of a moment. -/
structure Wf (m : Moment) : Prop where
  peers : PeerWf m.orphans m.d.sockets m.d.nextAddr m.d.localSocketList
    m.d.localSocketClosingList (disconnectsOf m.d.transports)
  loop : LoopWf {k | k.isAuth = false} m.orphans m.d.sockets (aliveOf m.d.transports) m.d.loop
  queue : QueueWf m.d.transports m.d.nextTAddr m.d.registration m.d.loop m.handling
  names : NamesWf m.d
  noProcess : m.d.jdwpList = []

section Transports

variable {T : TAddr → Option Atransport} {t : TAddr} {x x' : Atransport}

lemma disconnectsOf_update (y : Atransport) :
    disconnectsOf (update T t (some y)) = update (disconnectsOf T) t (some y.disconnects) := by
  funext u
  by_cases hu : u = t <;> simp [disconnectsOf, hu]

lemma disconnectsOf_eq (hx : T t = some x) : disconnectsOf T t = some x.disconnects := by
  rw [disconnectsOf, hx]
  rfl

/-- Assigning to other fields than the disconnect list. -/
lemma disconnectsOf_assign (hx : T t = some x) (hd : x'.disconnects = x.disconnects) :
    disconnectsOf (update T t (some x')) = disconnectsOf T := by
  rw [disconnectsOf_update, hd, ← disconnectsOf_eq hx, update_eq_self]

lemma aliveOf_assign (hx : T t = some x) (x' : Atransport) :
    aliveOf (update T t (some x')) = aliveOf T := by
  funext u
  by_cases hu : u = t <;> simp [aliveOf, hu, hx]

end Transports

/-! ## `parse_banner` -/

lemma applyProp_eq (x : Atransport) (tok : List UInt8) :
    ∃ a b c, Daemon.applyProp x tok = { x with product := a, model := b, device := c } := by
  unfold Daemon.applyProp
  split
  · simp only
    split
    · exact ⟨_, _, _, rfl⟩
    split
    · exact ⟨_, _, _, rfl⟩
    split
    · exact ⟨_, _, _, rfl⟩
    · exact ⟨_, _, _, rfl⟩
  · exact ⟨_, _, _, rfl⟩

lemma foldl_applyProp_eq (toks : List (List UInt8)) (x : Atransport) :
    ∃ a b c, toks.foldl Daemon.applyProp x =
      { x with product := a, model := b, device := c } := by
  induction toks generalizing x with
  | nil => exact ⟨_, _, _, rfl⟩
  | cons tok toks ih =>
    obtain ⟨a, b, c, h⟩ := applyProp_eq x tok
    rw [List.foldl_cons, h]
    obtain ⟨a', b', c', h'⟩ := ih { x with product := a, model := b, device := c }
    exact ⟨a', b', c', h'⟩

/-- `parse_banner` assigns the connection state and three names. -/
lemma parseBanner_eq (text : List UInt8) (x : Atransport) :
    ∃ st a b c, Daemon.parseBanner text x =
      { x with connectionState := st, product := a, model := b, device := c } := by
  unfold Daemon.parseBanner
  simp only
  obtain ⟨a, b, c, h⟩ := foldl_applyProp_eq
    (((((text.dropWhile (· ≠ 0x3a)).drop 1).dropWhile (· ≠ 0x3a)).drop 1).splitOn 0x3b
      |>.filter (· ≠ [])) x
  rw [h]
  exact ⟨_, a, b, c, rfl⟩

/-! ## Every change keeps the moment consistent -/

section Changes

variable {e : Event} {D₀ : Daemon} {m m' : Moment}

/-- The history grows. -/
theorem Effect.trace_suffix (he : Effect e D₀ m m') : m.d.trace <:+ m'.d.trace := by
  cases he
  case note => exact List.suffix_cons ..
  case receive => exact List.suffix_cons ..
  case send => exact List.suffix_cons ..
  case okay => exact List.suffix_cons ..
  case verified => exact List.suffix_cons ..
  case destroy => exact List.suffix_cons ..
  case retire => exact List.suffix_cons ..
  case pair => exact (List.suffix_cons ..).trans (List.suffix_append ..)
  case enqueueDone => exact List.suffix_cons ..
  case enqueueLink => exact List.suffix_cons ..
  case drained => exact List.suffix_cons ..
  case flushed => exact List.suffix_cons ..
  case wrteRead => exact (List.suffix_cons ..).trans (List.suffix_cons ..)
  case wrteJdwp => exact List.suffix_cons ..
  case wrteTracker => exact List.suffix_cons ..
  case confirm => exact List.suffix_cons ..
  case authDropped => exact List.suffix_cons ..
  case connected => exact List.suffix_cons ..
  case register => exact List.suffix_cons ..
  case enlist => exact List.suffix_cons ..
  case start => exact List.suffix_cons ..
  case unplug =>
    exact ((List.suffix_cons ..).trans (List.suffix_append ..)).trans (List.suffix_cons ..)
  case output => exact List.suffix_append ..
  case input => exact List.suffix_append ..
  all_goals exact List.suffix_rfl

/-- The settings are fixed. -/
lemma Effect.config (he : Effect e D₀ m m') : m'.d.config = m.d.config := by
  cases he <;> rfl

theorem Effect.namesWf (he : Effect e D₀ m m') (h : Wf m) : NamesWf m'.d := by
  have hn := h.names
  have htrace : ∀ o ∈ m.d.trace, o ∈ m'.d.trace := fun o ho => he.trace_suffix.subset ho
  have hnodup := h.peers.listNodup
  -- a socket keeps its id, its peer and its transport
  have hkeep : ∀ {D' : Daemon} {a : Addr} {s : Asocket} (s' : Asocket),
      (∀ o ∈ m.d.trace, o ∈ D'.trace) → D'.sockets = update m.d.sockets a (some s') →
      m.d.sockets a = some s → D'.nextAddr = m.d.nextAddr →
      D'.localSocketList = m.d.localSocketList → s'.id = s.id →
      (s'.peer = none ∨ s'.peer = s.peer) →
      (s'.ops = .remote → s.ops = .remote ∧ s'.transport = s.transport) → NamesWf D' := by
    intro D' a s s' htr hsock hs hN hl hid hp hrem
    refine hn.rewrite htr hsock hs hN (fun b hb => hl ▸ hb) fun q hq => ?_
    rw [Option.some.injEq] at hq
    subst hq
    exact ⟨.inl hid, hp, fun hr => ⟨(hrem hr).1, hid, (hrem hr).2⟩⟩
  -- a socket is freed
  have hfree : ∀ {D' : Daemon} {a : Addr} {s : Asocket}, (∀ o ∈ m.d.trace, o ∈ D'.trace) →
      D'.sockets = update m.d.sockets a none → m.d.sockets a = some s →
      D'.nextAddr = m.d.nextAddr → D'.localSocketList = m.d.localSocketList → NamesWf D' := by
    intro D' a s htr hsock hs hN hl
    refine hn.rewrite htr hsock hs hN (fun b hb => hl ▸ hb) fun q hq => ?_
    cases hq
  cases he
  case unpeer a s hs ha =>
    exact hkeep _ htrace rfl hs rfl rfl rfl (.inl rfl) fun hrem => ⟨hrem, rfl⟩
  case unname a s hs hl ha =>
    have hlocal : s.ops ≠ .remote := by
      intro hrem
      rcases hl with hl | hl
      · obtain ⟨q, hq, -, hlocal⟩ := h.peers.listed a hl
        rw [hs, Option.some.injEq] at hq
        rw [← hq, hrem] at hlocal
        cases hlocal
      · obtain ⟨q, hq, -, hfd, -⟩ := h.peers.flushing a hl
        rw [hs, Option.some.injEq] at hq
        rw [← hq, hrem] at hfd
        cases hfd
    refine hn.rewrite (a := a) htrace rfl hs rfl
      (fun _ hb => List.mem_of_mem_erase hb) fun s' hs' => ?_
    cases hs'
    exact ⟨.inr hnodup.not_mem_erase, .inr rfl, fun hrem => absurd hrem hlocal⟩
  case free a s hs _ _ _ _ _ _ _ => exact hfree htrace rfl hs rfl rfl
  case freeTracker a s hs _ _ _ _ _ _ => exact hfree htrace rfl hs rfl rfl
  case dropRemote r s t x hs _ _ _ _ => exact hfree htrace rfl hs rfl rfl
  case retire a s i ev L hs ha hops hp _ _ _ _ _ _ =>
    refine hn.rewrite (a := a) htrace rfl hs rfl
      (fun _ hb => List.mem_of_mem_erase hb) fun s' hs' => ?_
    cases hs'
    refine ⟨.inr hnodup.not_mem_erase, .inr rfl, fun hrem => ?_⟩
    rw [show s.ops = .remote from hrem] at hops
    cases hops
  case createFd n L _ _ _ => exact hn.create rfl rfl rfl rfl rfl (by simp)
  case createJdwp => exact hn.create rfl rfl rfl rfl rfl (by simp)
  case createTracker => exact hn.create rfl rfl rfl rfl rfl (by simp)
  case accept a s hs _ _ hops _ _ _ =>
    have hlt := h.peers.fresh a s hs
    refine hn.keep htrace ?_ ?_ fun b hb => .inr hb
    · intro b q p hb hp
      show p < m.d.nextAddr + 1
      simp only [update_apply] at hb
      split at hb
      · cases hb
        cases hp
        exact Nat.lt_succ_self _
      split at hb
      · cases hb
        cases hp
        exact Nat.lt_succ_of_lt hlt
      · exact Nat.lt_succ_of_lt (hn.bounded b q p hb hp)
    · intro b q hb
      simp only [update_apply] at hb
      split at hb
      case isTrue hba =>
        cases hb
        subst hba
        refine .inr ⟨s, hs, .inl rfl, fun hrem => ?_⟩
        rw [show s.ops = .remote from hrem] at hops
        cases hops
      split at hb
      case isTrue hbN =>
        cases hb
        exact .inl ⟨Nat.le_of_eq hbN.symm, by simp⟩
      case isFalse => exact .inr ⟨q, hb, .inl rfl, fun hrem => ⟨hrem, rfl, rfl, .inr rfl⟩⟩
  case pair a s id t x hs hp _ hl _ _ _ _ _ opened _ =>
    have hlt := h.peers.fresh a s hs
    have hlocal : s.ops ≠ .remote := by
      obtain ⟨q, hq, -, hlocal⟩ := h.peers.listed a hl
      rw [hs, Option.some.injEq] at hq
      intro hrem
      rw [← hq, hrem] at hlocal
      cases hlocal
    refine ⟨?_, ?_⟩
    · intro b q p hb hq
      show p < m.d.nextAddr + 1
      simp only [update_apply] at hb
      split at hb
      · cases hb
        cases hq
        exact Nat.lt_succ_self _
      split at hb
      · cases hb
        cases hq
        exact Nat.lt_succ_of_lt hlt
      · exact Nat.lt_succ_of_lt (hn.bounded b q p hb hq)
    · intro r q b s' u hr hrem hq hb hbl hu
      simp only [update_apply] at hr hb
      -- the new stream, or an old one
      by_cases hrN : r = m.d.nextAddr
      · subst hrN
        rw [if_neg (Nat.ne_of_gt hlt), if_pos rfl] at hr
        cases hr
        cases hq
        cases hu
        rw [if_pos rfl] at hb
        cases hb
        exact List.mem_append_right _ List.mem_cons_self
      · have hra : r ≠ a := by
          rintro rfl
          rw [if_pos rfl] at hr
          cases hr
          exact hlocal hrem
        rw [if_neg hra, if_neg hrN] at hr
        have hbN : b ≠ m.d.nextAddr := Nat.ne_of_lt (hn.bounded r q b hr hq)
        rw [if_neg hbN] at hb
        obtain ⟨s₀, hs₀, hid⟩ : ∃ s₀, m.d.sockets b = some s₀ ∧ s'.id = s₀.id := by
          split at hb
          case isTrue hba =>
            cases hb
            exact ⟨s, hba ▸ hs, rfl⟩
          case isFalse => exact ⟨s', hb, rfl⟩
        rw [hid]
        exact List.mem_append_right _
          (List.mem_cons_of_mem _ (hn.named r q b s₀ u hr hrem hq hs₀ hbl hu))
  case handOver a s t hs _ _ _ _ _ =>
    exact hkeep _ htrace rfl hs rfl rfl rfl (.inl rfl) fun hrem => by cases hrem
  case answered a s hs _ =>
    exact hkeep _ htrace rfl hs rfl rfl rfl (.inr rfl) fun hrem => by cases hrem
  case exits a s hs =>
    exact hkeep _ htrace rfl hs rfl rfl rfl (.inr rfl) fun hrem => ⟨hrem, rfl⟩
  case gather a s ps hs _ _ =>
    exact hkeep _ htrace rfl hs rfl rfl rfl (.inr rfl) fun hrem => ⟨hrem, rfl⟩
  case enqueueLink a s p out ev L _ hs _ _ _ _ _ _ _ _ _ =>
    exact hkeep _ htrace rfl hs rfl rfl rfl (.inr rfl) fun hrem => ⟨hrem, rfl⟩
  case drained a s ps out _ hs _ _ _ _ _ =>
    exact hkeep _ htrace rfl hs rfl rfl rfl (.inr rfl) fun hrem => ⟨hrem, rfl⟩
  case flushed a s ev L _ hs _ _ _ _ _ _ _ _ _ _ _ =>
    exact hkeep _ htrace rfl hs rfl rfl rfl (.inr rfl) fun hrem => ⟨hrem, rfl⟩
  case wrteJdwp a r s q p t x _ hs _ _ _ _ =>
    exact hkeep { s with pass := true } htrace rfl hs rfl rfl rfl (.inr rfl)
      fun hrem => ⟨hrem, rfl⟩
  case wrteTracker a r s q p t x _ hs _ _ _ _ =>
    exact hkeep { s with needUpdate := false } htrace rfl hs rfl rfl rfl (.inr rfl)
      fun hrem => ⟨hrem, rfl⟩
  all_goals exact hn.same htrace rfl rfl rfl

theorem Effect.peerWf (he : Effect e D₀ m m') (h : Wf m) :
    PeerWf m'.orphans m'.d.sockets m'.d.nextAddr m'.d.localSocketList
      m'.d.localSocketClosingList (disconnectsOf m'.d.transports) := by
  have hp := h.peers
  have hassign : ∀ {t x y}, m.d.transports t = some x → y.disconnects = x.disconnects →
      PeerWf m.orphans m.d.sockets m.d.nextAddr m.d.localSocketList m.d.localSocketClosingList
        (disconnectsOf (update m.d.transports t (some y))) := by
    intro t x y hx hd
    rw [disconnectsOf_assign hx hd]
    exact hp
  -- a transport without records is replaced by another one, or by nothing
  have hempty : ∀ {t} {o : Option Atransport}, (∀ x, m.d.transports t = some x →
      x.disconnects = []) → (∀ x, o = some x → x.disconnects = []) →
      PeerWf m.orphans m.d.sockets m.d.nextAddr m.d.localSocketList m.d.localSocketClosingList
        (disconnectsOf (update m.d.transports t o)) := by
    intro t o hold hnew
    refine hp.lists fun u => ?_
    by_cases hu : u = t
    · subst hu
      refine .inr ⟨fun l hl => ?_, fun l hl => ?_⟩
      · obtain ⟨x, hx, rfl⟩ := Option.map_eq_some_iff.mp hl
        exact hold x hx
      · rw [disconnectsOf, update_self] at hl
        obtain ⟨x, hx, rfl⟩ := Option.map_eq_some_iff.mp hl
        exact hnew x hx
    · left
      rw [disconnectsOf, disconnectsOf, update_of_ne hu]
  cases he
  case receive t x p rest hx _ _ => exact hassign hx rfl
  case send via p t x hx _ _ _ _ _ => exact hassign hx rfl
  case okay a r s q p t x _ _ _ _ _ hx _ _ _ _ _ _ => exact hassign hx rfl
  case tweak t x x' hx htw => exact hassign hx (by rw [htw])
  case offline t x hx => exact hassign hx rfl
  case down t x hx _ => exact hassign hx rfl
  case up t x hx _ _ => exact hassign hx rfl
  case verified t x hx _ _ => exact hassign hx rfl
  case banner t x text hx _ =>
    obtain ⟨st, a, b, c, hb⟩ := parseBanner_eq text x
    exact hassign hx (by rw [hb])
  case sever a p s hs hpeer ha => exact hp.sever hs hpeer ha
  case single a s hs hpeer => exact hp.single hs hpeer
  case unpeer a s hs ha => exact hp.rewrite hs ha _ rfl rfl rfl (.inl rfl) rfl
  case unname a s hs _ ha =>
    apply PeerWf.unlist _ ha
    exact hp.rewrite hs ha { s with id := 0 } rfl rfl rfl (.inr rfl) rfl
  case free a s hs ha hops hl hc _ _ _ => exact hp.free hs ha hops hl hc
  case freeTracker a s hs ha hops hl hc _ _ =>
    exact hp.free hs ha (by rw [hops]; decide) hl hc
  case dropRemote r s t x hs hr hops ht hx =>
    show PeerWf _ (update m.d.sockets r none) _ _ _ (disconnectsOf (update m.d.transports t
      (some { x with disconnects := x.disconnects.erase r })))
    rw [disconnectsOf_update]
    exact hp.dropRemote hs hr hops ht (disconnectsOf_eq hx)
  case retire a s i ev L hs ha hops hpeer _ _ _ _ _ _ =>
    apply hp.retire hs ha hops
    · rfl
    · exact hpeer
    · rfl
  case createFd n L _ _ _ => exact hp.create rfl rfl rfl
  case createJdwp => exact hp.create rfl rfl rfl
  case createTracker => exact hp.create rfl rfl rfl
  case accept a s hs ha hpeer hops hc hl _ => exact hp.accept hs ha hops hc hl rfl rfl rfl
  case pair a s id t x hs hpeer hc hl _ _ hx _ _ _ _ =>
    obtain ⟨s', hs', -, hlocal⟩ := hp.listed a hl
    rw [hs, Option.some.injEq] at hs'
    subst hs'
    show PeerWf _ _ _ _ _ (disconnectsOf (update m.d.transports t
      (some { x with disconnects := x.disconnects ++ [m.d.nextAddr] })))
    rw [disconnectsOf_update]
    apply hp.pair hs hpeer hlocal hc hl (disconnectsOf_eq hx) <;> rfl
  case handOver a s t hs ha hops hc hl _ =>
    apply hp.handOver hs ha hops hc
    · rfl
    · rfl
    · exact hc
  case await a s ev L hs ha hops hpeer hc hl _ _ _ _ _ _ _ =>
    exact hp.settle hs (by rw [hops]; rfl) hpeer hc hl
  case answered a s hs hops => exact hp.data hs _ (.inr ⟨hops, rfl⟩) rfl rfl rfl (.inl rfl)
  case exits a s hs => exact hp.data hs _ (.inl rfl) rfl rfl rfl (.inl rfl)
  case gather a s ps hs hops _ => exact hp.data hs _ (.inl rfl) rfl rfl rfl (.inr (.inr hops))
  case enqueueLink a s p out ev L _ hs hops _ _ _ _ _ _ _ _ =>
    exact hp.data hs _ (.inl rfl) rfl rfl rfl (.inr (.inl hops))
  case drained a s ps out _ hs hops _ _ _ _ =>
    exact hp.data hs _ (.inl rfl) rfl rfl rfl (.inr (.inl hops))
  case flushed a s ev L _ hs hops _ _ _ _ _ _ _ _ _ _ =>
    exact hp.data hs _ (.inl rfl) rfl rfl rfl (.inr (.inl hops))
  case wrteRead a r s q p t x ev L _ _ _ _ hto _ _ _ _ _ _ _ _ _ => exact hassign hto.alive rfl
  case wrteJdwp a r s q p t x _ hs _ _ hto _ =>
    exact (hassign (y := { x with toInput := x.toInput ++ [p] }) hto.alive rfl).data hs
      { s with pass := true } (.inl rfl) rfl rfl rfl (.inl rfl)
  case wrteTracker a r s q p t x _ hs _ _ hto _ =>
    exact (hassign (y := { x with toInput := x.toInput ++ [p] }) hto.alive rfl).data hs
      { s with needUpdate := false } (.inl rfl) rfl rfl rfl (.inl rfl)
  case register x hx _ =>
    refine hempty (fun y hy => ?_) (fun y hy => ?_)
    · exact absurd (h.queue.fresh _ y hy) (lt_irrefl _)
    · cases hy
      rw [hx]
  case enlist t x rest hreg hx _ =>
    refine hempty (fun y hy => ?_) (fun y hy => ?_)
    · exact (h.queue.waiting t y (hreg ▸ List.mem_cons_self) hy).1
    · cases hy
      rfl
  case start t x rest n k L M hreg hx _ _ _ _ _ =>
    refine hempty (fun y hy => ?_) (fun y hy => ?_)
    · exact (h.queue.waiting t y (hreg ▸ List.mem_cons_self) hy).1
    · cases hy
      rfl
  case freeTransport t x _ hx hd _ _ _ _ =>
    refine hempty (fun y hy => ?_) (fun y hy => ?_)
    · rw [hx, Option.some.injEq] at hy
      exact hy ▸ hd
    · cases hy
  case output t x y L R os n _ hx _ hstep => exact hassign hx (by rw [hstep.frame])
  case input t x y L R os n _ hx hstart hstep => exact hassign hx (by rw [hstep.frame])
  case closedAll t x _ hx _ => exact hassign hx rfl
  all_goals exact hp

/-- The event loop stays consistent, for any set of `fdevent`s such that an `auth_fde` in it is
not installed twice. -/
theorem Effect.loopWf {K : Set FdeId} (he : Effect e D₀ m m') (h : Wf m)
    (hl : LoopWf K m.orphans m.d.sockets (aliveOf m.d.transports) m.d.loop)
    (hauth : ∀ t, Forwards e D₀ t → authHistory m.d.trace = authHistory D₀.trace →
      FdeId.auth t ∈ K → ¬m.d.loop.Installed (.auth t)) :
    LoopWf K m'.orphans m'.d.sockets (aliveOf m'.d.transports) m'.d.loop := by
  have hassign : ∀ {t x} (y : Atransport) {L : Loop FdeId}, m.d.transports t = some x →
      LoopWf K m.orphans m.d.sockets (aliveOf m.d.transports) L →
      LoopWf K m.orphans m.d.sockets (aliveOf (update m.d.transports t (some y))) L := by
    intro t x y L hx hL
    rw [aliveOf_assign hx]
    exact hL
  have hdata : ∀ {a s} (s' : Asocket), m.d.sockets a = some s → s'.ops.isFd = s.ops.isFd →
      s'.fd = s.fd → s'.closing = s.closing →
      LoopWf K m.orphans (update m.d.sockets a (some s')) (aliveOf m.d.transports) m.d.loop := by
    intro a s s' hs hops hfd hc
    exact hl.data hs hops hfd (fun hcl => hc.trans hcl) (fun _ _ hb => hb) fun hX hn => absurd hX hn
  have hN : m.d.sockets m.d.nextAddr = none := by
    by_contra hsome
    obtain ⟨s, hs⟩ := Option.ne_none_iff_exists'.mp hsome
    exact absurd (h.peers.fresh _ s hs) (lt_irrefl _)
  -- the read subscription stays, and the socket keeps closing
  have hsame : ∀ {a s} {ps : List Apacket} {ev : BitVec 16}, m.d.sockets a = some s →
      has ev fdeRead = has (m.d.loop.mem (.socket a)).state fdeRead →
      has (m.d.loop.mem (.socket a)).events fdeRead = true →
      has ev fdeRead = true ∨ (m.d.loop.mem (.socket a)).forceEof = true ∨
        ∃ q, update m.d.sockets a (some { s with pkts := ps }) a = some q ∧
          q.closing = true := by
    intro a s ps ev hs hread hpend
    rw [hread]
    rcases hl.reading a hpend with hsub | hforce | ⟨q, hq, hqc⟩
    · exact .inl hsub
    · exact .inr (.inl hforce)
    · rw [hs, Option.some.injEq] at hq
      exact .inr (.inr ⟨_, update_self .., hq ▸ hqc⟩)
  cases he
  case receive t x p rest hx _ _ => exact hassign _ hx hl
  case send via p t x hx _ _ _ _ _ => exact hassign _ hx hl
  case okay a r s q p t x _ _ _ _ _ hx _ _ _ _ _ _ => exact hassign _ hx hl
  case tweak t x x' hx htw => exact hassign _ hx hl
  case offline t x hx => exact hassign _ hx hl
  case down t x hx _ => exact hassign _ hx hl
  case up t x hx _ _ => exact hassign _ hx hl
  case verified t x hx _ _ => exact hassign _ hx hl
  case banner t x text hx _ => exact hassign _ hx hl
  case sever a p s hs hpeer ha =>
    exact hl.mono ((Set.subset_insert p _).trans (Set.subset_insert a _))
  case single a s hs hpeer => exact hl.mono (Set.subset_insert a _)
  case unpeer a s hs ha => exact hdata _ hs rfl rfl rfl
  case unname a s hs _ ha => exact hdata _ hs rfl rfl rfl
  case uninstall a L _ ha hrem =>
    refine hl.remove hrem fun b hb => ?_
    cases hb
    exact ha
  case free a s hs ha _ _ _ hin _ _ => exact hl.freed hin
  case freeTracker a s hs ha _ _ _ hin _ => exact hl.freed hin
  case dropRemote r s t x hs hr hops ht hx =>
    refine (hassign _ hx hl).freed fun hin => ?_
    obtain ⟨q, hq, hfd, -⟩ := hl.socket r hin
    rw [hs, Option.some.injEq] at hq
    rw [← hq, hops] at hfd
    cases hfd
  case retire a s i ev L hs ha hops hpeer _ _ hin hset hev hread =>
    have hdone : LoopWf K (m.orphans \ {a})
        (update m.d.sockets a (some { s with closing := true, id := i }))
        (aliveOf m.d.transports) m.d.loop :=
      hl.data hs rfl rfl (fun _ => rfl) (fun b hb hX => ⟨hX, hb⟩) fun _ _ _ => hin
    refine hdone.set hset (fun b hb => ⟨hin, hev⟩) fun b hb _ => .inr (.inr ?_)
    cases hb
    exact ⟨_, update_self .., rfl⟩
  case createFd n L _ hown hins =>
    have hnew : LoopWf K (insert m.d.nextAddr m.orphans)
        (update m.d.sockets m.d.nextAddr
          (some { ops := .fd, fd := n, id := m.d.localSocketNextId }))
        (aliveOf m.d.transports) (m.d.loop.setMem (.socket m.d.nextAddr) {}) :=
      (hl.mono (Set.subset_insert _ _)).alloc hN fun _ => Set.mem_insert _ _
    refine hnew.install hins (fun _ hin => ?_) (fun b hb => ?_) ?_ ?_
    · rw [Loop.Installed, Loop.setMem_mem_self] at hin
      exact absurd hin (by decide)
    · cases hb
      exact ⟨_, update_self .., rfl, rfl⟩
    · intro t ht
      cases ht
    · intro i hi
      cases hi
  case createJdwp =>
    exact (hl.mono (Set.subset_insert _ _)).alloc hN fun _ => Set.mem_insert _ _
  case createTracker =>
    exact (hl.mono (Set.subset_insert _ _)).alloc hN fun _ => Set.mem_insert _ _
  case accept a s hs ha hpeer hops hc hlist hin =>
    have hne : a ≠ m.d.nextAddr := Nat.ne_of_lt (h.peers.fresh a s hs)
    have hnew := hl.alloc (s := { ops := .smart, peer := some a }) hN fun hfd => by cases hfd
    refine hnew.data (s := s) ?_ rfl rfl id (fun b hb hX => ⟨hX, hb⟩) fun _ _ _ => ?_
    · rw [update_of_ne hne, hs]
    · rw [Loop.Installed, Loop.setMem_mem_of_ne (by simpa using hne)]
      exact hin
  case pair a s id t x hs hpeer hc hlist hin _ hx _ _ _ _ =>
    have hne : a ≠ m.d.nextAddr := Nat.ne_of_lt (h.peers.fresh a s hs)
    have hnew := (hassign { x with disconnects := x.disconnects ++ [m.d.nextAddr] } hx hl).alloc
      (s := { ops := .remote, id := id, transport := some t, peer := some a }) hN
      fun hfd => by cases hfd
    refine hnew.data (s := s) ?_ rfl rfl (fun hc => hc) (fun b hb hX => ⟨hX, hb⟩) fun _ _ hfd => ?_
    · rw [update_of_ne hne, hs]
    · rw [Loop.Installed, Loop.setMem_mem_of_ne (by simpa using hne)]
      exact hin hfd
  case handOver a s t hs ha hops hc hlist _ =>
    exact hdata { s with ops := .fdNotify, peer := none, transport := some t } hs
      (by rw [hops]; rfl) rfl rfl
  case await a s ev L hs ha hops hpeer hc hlist hin hset hev hread hevents _ _ =>
    have hdone : LoopWf K (m.orphans \ {a}) m.d.sockets (aliveOf m.d.transports) m.d.loop := by
      refine { hl with installed := fun b q hb hq hfd => ?_ }
      by_cases hba : b = a
      · exact hba ▸ hin
      · exact hl.installed b q (fun hX => hb ⟨hX, hba⟩) hq hfd
    refine hdone.set hset (fun b hb => ⟨hin, hev⟩) fun b hb hpend => ?_
    rw [hevents] at hpend
    cases hpend
  case answered a s hs hops => exact hdata { s with ops := .fd } hs (by rw [hops]; rfl) rfl rfl
  case exits a s hs => exact hdata _ hs rfl rfl rfl
  case gather a s ps hs _ _ => exact hdata _ hs rfl rfl rfl
  case enqueueLink a s p out ev L _ hs _ _ _ hin hset hev hread _ _ =>
    refine LoopWf.set (hdata _ hs rfl rfl rfl) hset (fun b hb => ⟨hin, hev⟩) fun b hb hpend => ?_
    cases hb
    exact hsame hs hread hpend
  case drained a s ps out _ hs _ _ _ _ _ => exact hdata _ hs rfl rfl rfl
  case flushed a s ev L _ hs _ _ hin hset hev hread _ _ _ _ _ =>
    refine LoopWf.set (hdata _ hs rfl rfl rfl) hset (fun b hb => ⟨hin, hev⟩) fun b hb hpend => ?_
    cases hb
    exact hsame hs hread hpend
  case subscribe a s ev L hs hops hin hset hev hread _ _ =>
    exact hl.set hset (fun b hb => ⟨hin, hev⟩) fun b hb _ => .inl hread
  case grant a s ev L hs hops hin hset hev hread _ _ _ =>
    exact hl.set hset (fun b hb => ⟨hin, hev⟩) fun b hb _ => .inl hread
  case wrteRead a r s q p t x ev L _ _ _ _ hto hin hset hev hread _ hevents _ _ _ =>
    refine hassign _ hto.alive (hl.set hset (fun b hb => ⟨hin, hev⟩) fun b hb hpend => ?_)
    rw [hevents] at hpend
    cases hpend
  case wrteJdwp a r s q p t x _ hs _ _ hto _ =>
    have := hdata { s with pass := true } hs rfl rfl rfl
    rw [← aliveOf_assign hto.alive { x with toInput := x.toInput ++ [p] }] at this
    exact this
  case wrteTracker a r s q p t x _ hs _ _ hto _ =>
    have := hdata { s with needUpdate := false } hs rfl rfl rfl
    rw [← aliveOf_assign hto.alive { x with toInput := x.toInput ++ [p] }] at this
    exact this
  case report n ev mask k hn hrep => exact hl.report hn hrep
  case dispatch k L hd => exact hl.dispatch hd
  case force n k ev hk _ => exact hl.force hk
  case rearm L ev hset =>
    refine hl.set hset (fun b hb => ?_) fun b hb => ?_
    · cases hb
    · cases hb
  case confirm t n p L M _ _ _ hfwd hhist hL hM =>
    have hins := hl.install hL (hauth t hfwd hhist) (fun b hb => by cases hb)
      (fun u hu => by cases hu) (fun i hi => by cases hi)
    refine hins.set (Loop.fdeventSet_spec hM) (fun b hb => ?_) fun b hb => ?_
    · cases hb
    · cases hb
  case authDropped t L hrem =>
    refine hl.remove (Loop.fdeventRemove_spec hrem) fun b hb => ?_
    cases hb
  case connected n _ => exact hl.opened n
  case register x hx _ =>
    refine hl.transports fun t _ ht => ?_
    show aliveOf (update m.d.transports m.d.nextTAddr (some x)) t = true
    rw [aliveOf, update_apply]
    split
    · rfl
    · exact ht
  case enlist t x rest hreg hx _ => exact hassign _ hx hl
  case start t x rest n k L M hreg hx _ _ _ hL hM =>
    have hidle := (h.queue.waiting t x (hreg ▸ List.mem_cons_self) hx).2.2
    have hins := ((hl.opened n).opened k).install hL (fun _ => hidle) (fun b hb => by cases hb)
      (fun u hu => by cases hu; simp [aliveOf, hx]) (fun i hi => by cases hi)
    refine hassign _ hx (hins.set (Loop.fdeventSet_spec hM) (fun b hb => ?_) fun b hb => ?_)
    · cases hb
    · cases hb
  case unplug t x rest L _ hx _ _ hrem _ _ =>
    refine (hl.remove (Loop.fdeventRemove_spec hrem) fun b hb => ?_).close _
    cases hb
  case freeTransport t x _ hx hd _ _ _ hin =>
    refine hl.transports fun u hu hT => ?_
    have hut : u ≠ t := fun hut => hin (hut ▸ hu)
    show aliveOf (update m.d.transports t none) u = true
    rw [aliveOf, update_of_ne hut]
    exact hT
  case output t x y L R os n _ hx _ hstep =>
    exact hassign _ hx (hstep.closes (fun _ n hL => hL.close n) hl)
  case input t x y L R os n _ hx hstart hstep =>
    exact hassign _ hx (hstep.closes (fun _ n hL => hL.close n) hl)
  case closedAll t x _ hx _ => exact hassign _ hx hl
  case opened n d _ => exact hl.opened n
  case closed n _ => exact hl.close n
  all_goals exact hl

theorem Effect.queueWf (he : Effect e D₀ m m') (h : Wf m) :
    QueueWf m'.d.transports m'.d.nextTAddr m'.d.registration m'.d.loop m'.handling := by
  have hq := h.queue
  -- an operation on another `fdevent` installs no transport's
  have hset : ∀ {k : FdeId} {ev : BitVec 16} {L : Loop FdeId} (u : TAddr),
      Loop.SetSpec k ev m.d.loop L → L.Installed (.transport u) →
      m.d.loop.Installed (.transport u) := by
    intro k ev L u hset hin
    by_cases hu : FdeId.transport u = k
    · rw [Loop.Installed, hu, hset.active] at hin
      rw [Loop.Installed, hu]
      exact hin
    · rw [Loop.Installed, hset.mem_other _ hu] at hin
      exact hin
  have hrem : ∀ {k : FdeId} {L : Loop FdeId} (u : TAddr), Loop.RemoveSpec k m.d.loop L →
      L.Installed (.transport u) → m.d.loop.Installed (.transport u) := by
    intro k L u hrem hin
    by_cases hu : FdeId.transport u = k
    · rw [Loop.Installed, hu, hrem.mem_self, has_zero_left] at hin
      cases hin
    · rw [Loop.Installed, hrem.mem_other _ hu] at hin
      exact hin
  have hclose : ∀ (L : Loop FdeId) (n : ℕ), (∀ u, L.Installed (.transport u) →
      m.d.loop.Installed (.transport u)) → ∀ u, (L.adbClose n).Installed (.transport u) →
      m.d.loop.Installed (.transport u) :=
    fun L n hL u hin => hL u hin
  have hsock : ∀ u, (m.d.loop.setMem (.socket m.d.nextAddr) {}).Installed (.transport u) →
      m.d.loop.Installed (.transport u) := by
    intro u hin
    rw [Loop.Installed, Loop.setMem_mem_of_ne (by simp)] at hin
    exact hin
  cases he
  case finish => exact hq.idle
  case receive t x p rest hx hp _ => exact hq.receive hx hp
  case send via p t x hx _ _ _ _ _ => exact hq.assign hx rfl rfl fun _ hd hm => ⟨hd, hm⟩
  case okay a r s q p t x _ _ _ _ _ hx _ _ _ _ _ _ =>
    exact hq.assign hx rfl rfl fun _ hd hm => ⟨hd, hm⟩
  case tweak t x x' hx htw =>
    rw [htw]
    exact hq.assign hx rfl rfl fun _ hd hm => ⟨hd, hm⟩
  case offline t x hx => exact hq.assign hx rfl rfl fun _ hd hm => ⟨hd, hm⟩
  case down t x hx _ => exact hq.assign hx rfl rfl fun _ hd hm => ⟨hd, hm⟩
  case up t x hx _ _ => exact hq.assign hx rfl rfl fun _ hd hm => ⟨hd, hm⟩
  case verified t x hx _ _ =>
    have : QueueWf (update m.d.transports t (some { x with online := true })) m.d.nextTAddr
        m.d.registration m.d.loop m.handling :=
      hq.assign hx rfl rfl fun _ hd hm => ⟨hd, hm⟩
    refine { this with served := fun u p hu => ?_ }
    cases hu
  case banner t x text hx _ =>
    obtain ⟨st, a, b, c, hb⟩ := parseBanner_eq text x
    rw [hb]
    exact hq.assign hx rfl rfl fun _ hd hm => ⟨hd, hm⟩
  case uninstall a L _ _ hspec => exact hq.loop fun u => hrem u hspec
  case dropRemote r s t x hs hr hops ht hx =>
    exact hq.assign hx rfl rfl fun _ hd hm => ⟨by simp [hd], hm⟩
  case retire a s i ev L _ _ _ _ _ _ _ hspec _ _ => exact hq.loop fun u => hset u hspec
  case createFd n L _ _ hins =>
    obtain ⟨U, M, rfl, -, -⟩ := Loop.fdeventInstall_ok hins
    refine hq.loop fun u hin => ?_
    simpa [Loop.Installed, Loop.setMem_mem_of_ne] using hin
  case createJdwp => exact hq.loop hsock
  case createTracker => exact hq.loop hsock
  case accept a s _ _ _ _ _ _ _ => exact hq.loop hsock
  case pair a s id t x hs _ _ _ _ _ hx hserve _ _ _ =>
    obtain ⟨p, hp, -⟩ := hserve
    have : QueueWf (update m.d.transports t
        (some { x with disconnects := x.disconnects ++ [m.d.nextAddr] })) m.d.nextTAddr
        m.d.registration m.d.loop m.handling :=
      hq.assign hx rfl rfl fun ht => absurd ht (hq.served t p hp).1
    exact this.loop hsock
  case await a s ev L _ _ _ _ _ _ _ hspec _ _ _ _ _ => exact hq.loop fun u => hset u hspec
  case enqueueLink a s p out ev L _ _ _ _ _ _ hspec _ _ _ _ => exact hq.loop fun u => hset u hspec
  case flushed a s ev L _ _ _ _ _ hspec _ _ _ _ _ _ _ => exact hq.loop fun u => hset u hspec
  case subscribe a s ev L _ _ _ hspec _ _ _ _ => exact hq.loop fun u => hset u hspec
  case grant a s ev L _ _ _ hspec _ _ _ _ _ => exact hq.loop fun u => hset u hspec
  case wrteRead a r s q p t x ev L _ _ _ _ hto _ hspec _ _ _ _ _ _ _ =>
    exact (hq.assign (y := { x with toInput := x.toInput ++ [p] }) hto.alive rfl rfl
      fun _ hd hm => ⟨hd, hm⟩).loop fun u => hset u hspec
  case wrteJdwp a r s q p t x _ _ _ _ hto _ =>
    exact hq.assign hto.alive rfl rfl fun _ hd hm => ⟨hd, hm⟩
  case wrteTracker a r s q p t x _ _ _ _ hto _ =>
    exact hq.assign hto.alive rfl rfl fun _ hd hm => ⟨hd, hm⟩
  case report n ev mask k _ _ =>
    exact hq.loop fun u hin => (Loop.installed_fdeventReport k ev _ _).mp hin
  case dispatch k L hd =>
    obtain ⟨rest, -, rfl⟩ := Loop.fdeventPlistDequeue_eq hd
    exact hq.loop fun u hin =>
      (Loop.installed_fdeventCallFdfunc k { m.d.loop with listPending := rest } _).mp hin
  case force n k ev _ _ => exact hq.loop fun u hin => (Loop.installed_setMem (by rfl) _).mp hin
  case rearm L ev hspec => exact hq.loop fun u => hset u hspec
  case confirm t n p L M _ _ _ _ _ hL hM =>
    obtain ⟨U, K, rfl, -, -⟩ := Loop.fdeventInstall_ok hL
    refine hq.loop fun u hin => ?_
    rw [Loop.Installed, (Loop.fdeventSet_spec hM).mem_other _ (by simp)] at hin
    simpa [Loop.Installed, Loop.setMem_mem_of_ne] using hin
  case authDropped t L hspec => exact hq.loop fun u => hrem u (Loop.fdeventRemove_spec hspec)
  case connected n _ => exact hq.loop fun u hin => hin
  case opened n d _ => exact hq.loop fun u hin => hin
  case closed n _ => exact hq.loop fun u hin => hin
  case register x hx _ =>
    refine hq.register (by rw [hx]) (by rw [hx]; rfl) (by rw [hx]) (by rw [hx]) fun hin => ?_
    obtain ⟨y, hy⟩ := Option.isSome_iff_exists.mp (h.loop.transport _ hin)
    exact absurd (hq.fresh _ y hy) (lt_irrefl _)
  case enlist t x rest hreg hx _ =>
    rw [hreg] at hq
    exact hq.pop hx (hq.refs t x hx) fun u _ hin => hin
  case start t x rest n k L M hreg hx _ _ _ hL hM =>
    obtain ⟨U, K, rfl, -, -⟩ := Loop.fdeventInstall_ok hL
    rw [hreg] at hq
    refine hq.pop hx rfl fun u hu hin => ?_
    rw [Loop.Installed, (Loop.fdeventSet_spec hM).mem_other _ (by simpa using hu)] at hin
    simpa [Loop.Installed, Loop.setMem_mem_of_ne, hu] using hin
  case unplug t x rest L hreg hx _ _ hspec _ _ =>
    rw [hreg] at hq
    have hpop := hq.pop hx (hq.refs t x hx)
      fun u _ hin => hrem u (Loop.fdeventRemove_spec hspec) hin
    rw [← hx, update_eq_self] at hpop
    exact hpop.loop fun u hin => hin
  case freeTransport t x hidle hx _ _ _ hreg _ =>
    rw [hidle] at hq ⊢
    exact hq.free hreg
  case output t x y L R os n hidle hx _ hstep =>
    rw [hidle] at hq ⊢
    obtain ⟨hrun, href, hR⟩ := hstep.running (hq.refs t x hx)
    exact hq.thread hx hrun href hR (hstep.closes hclose fun u hin => hin)
  case input t x y L R os n hidle hx hstart hstep =>
    rw [hidle] at hq ⊢
    obtain ⟨hrun, href, hR⟩ := hstep.running (hq.refs t x hx)
    exact hq.thread hx hrun href hR (hstep.closes hclose fun u hin => hin)
  case closedAll t x _ hx hpc =>
    exact hq.assign hx rfl (by simp [Atransport.running, hpc]) fun _ hd hm => ⟨hd, hm⟩
  all_goals exact hq

/-- Every change keeps the moment consistent. -/
theorem Effect.wf (he : Effect e D₀ m m') (h : Wf m) : Wf m' := by
  refine ⟨he.peerWf h, he.loopWf h h.loop ?_, he.queueWf h, he.namesWf h, ?_⟩
  · intro t _ _ ht
    cases ht
  · have hnone := h.noProcess
    cases he
    all_goals exact hnone

end Changes

end Adbd
