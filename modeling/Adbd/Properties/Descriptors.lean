import Adbd.Properties.Teardown

/-!
# The descriptors of a transport

Every close of a descriptor on behalf of a transport is recorded together with whether the number
still was what the transport had opened.  The connection of a TCP transport and its
`transport_socket` are closed once, but its end of the pair is closed both by `t->close` and by
`transport_registration_func` when the transport is removed, and by then the number may belong to
somebody else.
-/

namespace Adbd.Descriptors

open Function FlagWord Transition Relation Daemon Teardown

/-- The closes of the descriptor `d`, newest first: did they hit it? -/
def closesOf (d : Desc) (os : List Obs) : List Bool :=
  os.filterMap fun
    | .shut d' _ own => if d' = d then some own else none
    | _ => none

/-- Each descriptor of `t` was closed exactly once, and every close hit the descriptor it was
meant for. -/
structure Disciplined (t : TAddr) (os : List Obs) : Prop where
  sfd : closesOf (.sfd t) os = [true]
  fd : closesOf (.transportFd t) os = [true]
  socket : closesOf (.transportSocket t) os = [true]

/-- The calls after which a TCP transport has closed its end of the pair once more. -/
def isCloser (t : TAddr) : Obs → Bool
  | .close u => u = t
  | .fetched u .remove => u = t
  | _ => false

/-- What is known about the closes of the pair's end of `t`. -/
structure Closing (t : TAddr) (D : Daemon) : Prop where
  fresh : D.nextTAddr ≤ t → closesOf (.transportFd t) D.trace = [] ∧
    ∀ ty, .registered t ty ∉ D.trace
  type : ∀ x ty, D.transports t = some x → .registered t ty ∈ D.trace → ty = x.type
  count : .registered t .loc ∈ D.trace →
    (closesOf (.transportFd t) D.trace).length = (D.trace.filter (isCloser t)).length

/-! ## Frames -/

section Frames

variable {t u : TAddr} {D D' : Daemon} {os : List Obs} {d : Desc} {x x' y : Atransport}
  {T : TAddr → Option Atransport} {L M : Loop FdeId} {R S : List (TAddr × RegAction)}
  {packet : Option Apacket}

lemma closesOf_append (os os' : List Obs) :
    closesOf d (os ++ os') = closesOf d os ++ closesOf d os' :=
  List.filterMap_append ..

/-- Nothing else matters. -/
lemma Closing.congr (h : Closing t D) (hN : D'.nextTAddr = D.nextTAddr)
    (hT : (D'.transports t).map (·.type) = (D.transports t).map (·.type))
    (hclose : closesOf (.transportFd t) D'.trace = closesOf (.transportFd t) D.trace)
    (hreg : ∀ ty, .registered t ty ∈ D'.trace ↔ .registered t ty ∈ D.trace)
    (hcloser : D'.trace.filter (isCloser t) = D.trace.filter (isCloser t)) : Closing t D' := by
  refine ⟨fun hle => ?_, fun x' ty hx' hmem => ?_, fun hmem => ?_⟩
  · rw [hclose]
    obtain ⟨hnil, hno⟩ := h.fresh (hN ▸ hle)
    exact ⟨hnil, fun ty hmem => hno ty ((hreg ty).mp hmem)⟩
  · rw [hx', Option.map_some] at hT
    obtain ⟨x, hx, htype⟩ := Option.map_eq_some_iff.mp hT.symm
    rw [← htype]
    exact h.type x ty hx ((hreg ty).mp hmem)
  · rw [hclose, hcloser]
    exact h.count ((hreg _).mp hmem)

lemma type_assign (hx : T u = some x) (h : x'.type = x.type) :
    (update T u (some x') t).map (·.type) = (T t).map (·.type) := by
  by_cases htu : t = u
  · subst htu
    rw [update_self, hx, Option.map_some, Option.map_some, h]
  · rw [update_of_ne htu]

/-- The observations `os` are as many closes of the pair's end of `t` as they should be for a
TCP transport. -/
def Balanced (t : TAddr) (os : List Obs) : Prop :=
  (closesOf (.transportFd t) os).length = (os.filter (isCloser t)).length

lemma Balanced.append {os os' : List Obs} (h : Balanced t os) (h' : Balanced t os') :
    Balanced t (os ++ os') := by
  rw [Balanced, closesOf_append, List.filter_append, List.length_append, List.length_append]
  rw [Balanced] at h h'
  omega

lemma isLife_of_isCloser {o : Obs} (h : isCloser t o = true) : isLife t o = true := by
  cases o with
  | fetched u a => cases a <;> simp_all [isCloser, isLife]
  | close u => exact h
  | _ => cases h

/-- A thread of another transport. -/
lemma closesOf_other (htu : t ≠ u) (hos : ∀ o ∈ os, o.ofThread u) :
    closesOf (.transportFd t) os = [] ∧ os.filter (isCloser t) = [] := by
  constructor
  · rw [closesOf, List.filterMap_eq_nil_iff]
    intro o ho
    have hthread := hos o ho
    cases o with
    | shut d n own =>
      have hne : d ≠ .transportFd t := by
        rintro rfl
        rcases hthread with h | h
        · cases h
        · cases h
          exact htu rfl
      simp [hne]
    | _ => rfl
  · rw [List.filter_eq_nil_iff]
    intro o ho
    have hthread := hos o ho
    cases o with
    | close v =>
      have hv : v = u := hthread
      simp [isCloser, hv, htu.symm]
    | fetched v a => exact hthread.elim
    | _ => simp [isCloser]

lemma notMem_registered {ty : TransportType} (hos : ∀ o ∈ os, o.ofThread u) :
    .registered t ty ∉ os :=
  fun hmem => hos _ hmem

lemma balanced_kick (h : Kick t x L y M os) : Balanced t os := by
  cases h <;> simp [Balanced, closesOf, isCloser]

lemma balanced_close (h : CloseT t x L M os) (hloc : x.type = .loc) : Balanced t os := by
  cases h with
  | usb husb => cases hloc.symm.trans husb
  | loc own => simp [Balanced, closesOf, isCloser]

lemma balanced_posted : Balanced t [.posted t] := rfl

lemma balanced_unref (h : Unref t x L R y M S os) (hloc : x.type = .loc) : Balanced t os := by
  cases h with
  | shared => rfl
  | last M os _ _ hclose => exact balanced_posted.append (balanced_close hclose hloc)
  | kicks z M N os os' _ _ hkick hclose =>
    exact balanced_posted.append ((balanced_close hclose hloc).append (balanced_kick hkick))

lemma balanced_output (h : OutputStep packet t D x y L R os) (hloc : x.type = .loc) :
    Balanced t os := by
  cases h with
  | kick z L os _ hkick => exact balanced_kick hkick
  | unref z L R os _ hunref => exact balanced_unref hunref hloc
  | _ => rfl

lemma balanced_input (h : InputStep t D x y L R os) (hloc : x.type = .loc) : Balanced t os := by
  cases h with
  | take p rest =>
    rw [forwarded]
    split <;> rfl
  | kick z L os _ hkick => exact balanced_kick hkick
  | unref z L R os _ hunref => exact balanced_unref hunref hloc
  | _ => rfl

/-- A thread makes a step. -/
lemma Closing.thread {n : ℕ} (h : Closing t D) (hx : D.transports u = some x)
    (hN : u < D.nextTAddr) (htype : y.type = x.type) (hos : ∀ o ∈ os, o.ofThread u)
    (hbal : x.type = .loc → Balanced u os) : Closing t (D.threadResult u y L R os n) := by
  have hreg : ∀ ty, .registered t ty ∈ os ++ D.trace ↔ .registered t ty ∈ D.trace := by
    intro ty
    rw [List.mem_append]
    exact or_iff_right (notMem_registered hos)
  by_cases htu : t = u
  · subst htu
    refine ⟨fun hle => absurd hN (Nat.not_lt.mpr hle), fun z ty hz hmem => ?_, fun hmem => ?_⟩
    · have hz : update D.transports t (some y) t = some z := hz
      rw [update_self, Option.some.injEq] at hz
      rw [← hz, htype]
      exact h.type x ty hx ((hreg ty).mp hmem)
    · have hmem' := (hreg _).mp hmem
      exact Balanced.append (hbal (h.type x _ hx hmem').symm) (h.count hmem')
  · obtain ⟨hclose, hcloser⟩ := closesOf_other htu hos
    refine h.congr rfl (type_assign hx htype) ?_ hreg ?_
    · show closesOf _ (os ++ D.trace) = _
      rw [closesOf_append, hclose, List.nil_append]
    · show (os ++ D.trace).filter _ = _
      rw [List.filter_append, hcloser, List.nil_append]

end Frames

/-! ## Every change -/

section Changes

variable {e : Event} {D₀ : Daemon} {m m' : Moment} {t : TAddr}

/-- A change keeps the count of closes. -/
theorem closing_effect (he : Effect e D₀ m m') (h : Wf m) (hlife : Life t m.d)
    (hc : Closing t m.d) : Closing t m'.d := by
  cases he
  case note o ho =>
    cases o <;> first
      | exact ho.elim
      | exact hc.congr rfl rfl rfl (fun ty => by simp [emit]) rfl
  case tweak u x x' hx hx' =>
    refine hc.congr rfl (type_assign hx ?_) rfl (fun ty => Iff.rfl) rfl
    rw [hx']
  case banner u x text hx hserve =>
    obtain ⟨st, a, b, c, hbanner⟩ := parseBanner_eq text x
    refine hc.congr rfl (type_assign hx ?_) rfl (fun ty => Iff.rfl) rfl
    rw [hbanner]
  case register x hx hown =>
    by_cases htN : t = m.d.nextTAddr
    · subst htN
      obtain ⟨hnil, hno⟩ := hc.fresh (le_refl _)
      have hcloser : m.d.trace.filter (isCloser m.d.nextTAddr) = [] := by
        rw [List.filter_eq_nil_iff]
        intro o ho hcl
        have hmem : o ∈ lifeOf m.d.nextTAddr m.d.trace :=
          List.mem_filter.mpr ⟨ho, isLife_of_isCloser hcl⟩
        rw [(hlife.unborn (le_refl _)).2] at hmem
        cases hmem
      refine ⟨fun hle => absurd hle (Nat.not_succ_le_self _), fun y ty hy hmem => ?_, fun _ => ?_⟩
      · have hy : update m.d.transports m.d.nextTAddr (some x) m.d.nextTAddr = some y := hy
        rw [update_self, Option.some.injEq] at hy
        rw [← hy]
        rcases List.mem_cons.mp hmem with heq | hmem
        · cases heq
          rfl
        · exact absurd hmem (hno ty)
      · show (closesOf _ m.d.trace).length = (m.d.trace.filter _).length
        rw [hnil, hcloser]
        rfl
    · have hmem : ∀ ty, .registered t ty ∈ Obs.registered m.d.nextTAddr x.type :: m.d.trace ↔
          .registered t ty ∈ m.d.trace := by
        intro ty
        simp [htN]
      have hT : (update m.d.transports m.d.nextTAddr (some x)) t = m.d.transports t :=
        update_of_ne htN ..
      refine ⟨fun hle => ?_, fun y ty hy hreg => ?_, fun hreg => ?_⟩
      · obtain ⟨hnil, hno⟩ := hc.fresh ((Nat.le_succ _).trans hle)
        exact ⟨hnil, fun ty hreg => hno ty ((hmem ty).mp hreg)⟩
      · exact hc.type y ty (hT.symm.trans hy) ((hmem ty).mp hreg)
      · exact hc.count ((hmem _).mp hreg)
  case unplug u x rest L hreg hx hrem hsame hL own own' =>
    set tail : List Obs := (if has (m.d.loop.mem (.transport u)).state fdeActive then
      [.shut (.transportSocket u) (m.d.loop.mem (.transport u)).fd own'] else []) with htail
    have htail' : ∀ o ∈ tail, ∃ n own, o = .shut (.transportSocket u) n own := by
      intro o ho
      rw [htail] at ho
      split at ho
      · rw [List.mem_singleton] at ho
        exact ⟨_, _, ho⟩
      · cases ho
    have hclose : closesOf (.transportFd t) tail = [] := by
      rw [closesOf, List.filterMap_eq_nil_iff]
      intro o ho
      obtain ⟨n, own, rfl⟩ := htail' o ho
      rfl
    have hcloser : tail.filter (isCloser t) = [] := by
      rw [List.filter_eq_nil_iff]
      intro o ho
      obtain ⟨n, own, rfl⟩ := htail' o ho
      simp [isCloser]
    have hmem : ∀ ty, .registered t ty ∈ Obs.shut (.transportFd u) x.fd own ::
        (tail ++ .fetched u .remove :: m.d.trace) ↔ .registered t ty ∈ m.d.trace := by
      intro ty
      rw [List.mem_cons, List.mem_append, List.mem_cons]
      constructor
      · rintro (hno | hno | hno | hmem)
        · cases hno
        · obtain ⟨n, own, heq⟩ := htail' _ hno
          cases heq
        · cases hno
        · exact hmem
      · exact fun hmem => .inr (.inr (.inr hmem))
    by_cases htu : t = u
    · subst htu
      refine ⟨fun hle => absurd (h.queue.fresh t x hx) (Nat.not_lt.mpr hle), fun y ty hy hin => ?_,
        fun hin => ?_⟩
      · exact hc.type y ty hy ((hmem ty).mp hin)
      · have hcount := hc.count ((hmem _).mp hin)
        show (closesOf (.transportFd t) ([Obs.shut (.transportFd t) x.fd own] ++ (tail ++
          ([Obs.fetched t .remove] ++ m.d.trace)))).length = (([Obs.shut (.transportFd t) x.fd own]
            ++ (tail ++ ([Obs.fetched t .remove] ++ m.d.trace))).filter (isCloser t)).length
        simp only [closesOf_append, List.filter_append, hclose, hcloser, List.length_append,
          hcount]
        simp [closesOf, isCloser]
    · refine hc.congr rfl rfl ?_ hmem ?_
      · show closesOf (.transportFd t) ([Obs.shut (.transportFd u) x.fd own] ++ (tail ++
          ([Obs.fetched u .remove] ++ m.d.trace))) = _
        simp only [closesOf_append, hclose]
        simp [closesOf, Ne.symm htu]
      · show ([Obs.shut (.transportFd u) x.fd own] ++ (tail ++
          ([Obs.fetched u .remove] ++ m.d.trace))).filter _ = _
        simp only [List.filter_append, hcloser]
        simp [isCloser, Ne.symm htu]
  case freeTransport u x hidle hx hd hrem hhist hreg hin =>
    refine ⟨hc.fresh, fun y ty hy hmem => ?_, hc.count⟩
    have hy : update m.d.transports u none t = some y := hy
    rw [update_apply] at hy
    split at hy
    · cases hy
    · exact hc.type y ty hy hmem
  case output u x y L R os n hidle hx hact hstep =>
    refine hc.thread hx (h.queue.fresh u x hx) ?_ (fun o ho => hstep.ofThread ho)
      (balanced_output hstep)
    rw [hstep.frame]
  case input u x y L R os n hidle hx hstart hstep =>
    refine hc.thread hx (h.queue.fresh u x hx) ?_ (fun o ho => hstep.ofThread ho)
      (balanced_input hstep)
    rw [hstep.frame]
  case pair a s id u x hs hp hclosing hl hin hnew hx hserve honline opened hopened =>
    cases opened with
    | false => exact hc.congr rfl (type_assign hx rfl) rfl (fun ty => by simp) rfl
    | true => exact hc.congr rfl (type_assign hx rfl) rfl (fun ty => by simp) rfl
  all_goals
    refine hc.congr rfl ?_ rfl (fun ty => ?_) rfl
    · first
      | rfl
      | apply type_assign
        · first
          | assumption
          | exact Moment.SendsTo.alive (by assumption)
        · rfl
    · first
      | exact Iff.rfl
      | simp [emit, setSocket, setTransport]

end Changes

/-! ## Lives -/

section Lives

variable {D : Daemon} {t : TAddr}

lemma closing_of_reachable (h : Reachable D) (t : TAddr) : Closing t D := by
  have hkept : Kept (fun _ _ => True) fun m => Life t m.d ∧ Closing t m.d := by
    intro e D m m' hC hw hinv hpath hwf hm he
    exact ⟨life_kept t e D m m' hC hw hinv.1 hpath hwf hm.1 he, closing_effect he hwf hm.1 hm.2⟩
  refine (hkept.reachable (fun config fds inUse D hmain => ?_) h).2
  obtain ⟨L, O, I, rfl⟩ := adbMain_eq hmain
  refine ⟨?_, ⟨fun _ => ⟨rfl, fun ty hmem => ?_⟩, fun x ty hx => ?_, fun hmem => ?_⟩⟩
  · rw [Life, decide_eq_false (Nat.not_lt_zero t)]
    exact .unborn
  · cases hmem
  · cases hx
  · cases hmem

lemma filter_isCloser (os : List Obs) :
    os.filter (isCloser t) = (lifeOf t os).filter (isCloser t) := by
  rw [lifeOf, List.filter_filter]
  refine List.filter_congr fun o _ => ?_
  cases hcl : isCloser t o with
  | false => rfl
  | true => rw [isLife_of_isCloser hcl, Bool.true_and]

/-- A transport that has been freed has been through its whole life. -/
lemma fullLife_of_freed (h : Reachable D) (hreg : ∃ ty, .registered t ty ∈ D.trace)
    (hdead : D.transports t = none) : lifeOf t D.trace = fullLife t := by
  obtain ⟨ty, hreg⟩ := hreg
  have hborn : t < D.nextTAddr := by
    by_contra hno
    exact ((closing_of_reachable h t).fresh (Nat.not_lt.mp hno)).2 ty hreg
  have hlife := life_of_reachable h t
  rw [Life, hdead, decide_eq_true hborn] at hlife
  generalize queueOf t D.registration = q at hlife
  generalize lifeOf t D.trace = l at hlife ⊢
  cases hlife
  rfl

/-- In every life of a TCP transport its end of the pair is closed twice. -/
theorem fd_closed_twice (h : Reachable D) (htcp : .registered t .loc ∈ D.trace)
    (hdead : D.transports t = none) :
    (closesOf (.transportFd t) D.trace).length = 2 ∧ ¬Disciplined t D.trace := by
  have hcount := (closing_of_reachable h t).count htcp
  rw [filter_isCloser, fullLife_of_freed h ⟨_, htcp⟩ hdead] at hcount
  have htwo : (closesOf (.transportFd t) D.trace).length = 2 := by
    rw [hcount]
    simp [fullLife, isCloser]
  refine ⟨htwo, fun hd => ?_⟩
  rw [hd.fd] at htwo
  cases htwo

/-- The theorem at a whole life. -/
theorem fd_closed_twice_shortLife : ∃ D, Reachable D ∧ .registered 0 .loc ∈ D.trace ∧
    D.transports 0 = none ∧ (closesOf (.transportFd 0) D.trace).length = 2 ∧
    ¬Disciplined 0 D.trace := by
  obtain ⟨D, hD, hdead, -, hmem⟩ := shortLife_reachable
  have htcp : .registered 0 .loc ∈ D.trace := hmem _ (by simp)
  exact ⟨D, hD, htcp, hdead, fd_closed_twice hD htcp hdead⟩

/-- The number of the pair's end, which another thread has been given in between, is closed for
the transport once more. -/
theorem stray_close : ∃ D, Reachable D ∧ .registered 0 .loc ∈ D.trace ∧ D.transports 0 = none ∧
    .shut (.transportFd 0) 12 true ∈ D.trace ∧ .shut (.transportFd 0) 12 false ∈ D.trace ∧
    ¬Disciplined 0 D.trace := by
  obtain ⟨D, hD, hdead, -, hmem⟩ := shortLife_reachable
  have hstray : .shut (.transportFd 0) 12 false ∈ D.trace := hmem _ (by simp)
  refine ⟨D, hD, hmem _ (by simp), hdead, hmem _ (by simp), hstray, fun hd => ?_⟩
  have hfalse : false ∈ closesOf (.transportFd 0) D.trace :=
    List.mem_filterMap.mpr ⟨_, hstray, by simp⟩
  rw [hd.fd] at hfalse
  simp at hfalse

end Lives

end Adbd.Descriptors
