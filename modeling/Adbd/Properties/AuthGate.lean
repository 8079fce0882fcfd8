import Adbd.Properties.OutgoingPath

/-!
# Who is served when authentication is on

A transport that is online may open services.  Where keys are asked for, it gets online in one way:
the key its host sent was forwarded to the framework, and the framework answered `OK` later on.
The exchange of a token and its signature leads nowhere, since `adb_auth_verify` accepts nothing.

The history records both, but the argument goes by the state: the answer can only come through the
`fdevent` that the forwarding of a key installs.
-/

namespace Adbd.AuthGate

open Function Relation Transition Daemon

/-- The transport is online, or there has been a stream on it. -/
def Served (t : TAddr) (D : Daemon) : Prop :=
  (D.transports t).any (·.online) = true ∨ ∃ r a l rid, .stream r a l rid t ∈ D.trace

/-- The transport is online, or there has been a stream on it that is not in the history `old`. -/
def ServedSince (old : List Obs) (t : TAddr) (D : Daemon) : Prop :=
  (D.transports t).any (·.online) = true ∨
    ∃ r a l rid, .stream r a l rid t ∈ D.trace ∧ .stream r a l rid t ∉ old

lemma served_iff {t : TAddr} {D : Daemon} : Served t D ↔ ServedSince [] t D := by
  simp only [Served, ServedSince, List.not_mem_nil, not_false_eq_true, and_true]

/-! ## What makes a transport served -/

section Changes

variable {e : Event} {D₀ D D' : Daemon} {m m' : Moment} {t u : TAddr} {x y : Atransport}
  {T : TAddr → Option Atransport} {old : List Obs}

/-- Assigning to other fields puts no transport online. -/
lemma online_of_assign (hx : T u = some x) (hy : y.online = x.online)
    (h : (update T u (some y) t).any (·.online) = true) : (T t).any (·.online) = true := by
  by_cases htu : t = u
  · subst htu
    rw [update_self, Option.any_some, hy] at h
    rw [hx, Option.any_some, h]
  · rwa [update_of_ne htu] at h

/-- A transport that has not been online is not put online. -/
lemma online_of_offline (hy : y.online = false)
    (h : (update T u (some y) t).any (·.online) = true) : (T t).any (·.online) = true := by
  by_cases htu : t = u
  · rw [htu, update_self, Option.any_some, hy] at h
    cases h
  · rwa [update_of_ne htu] at h

lemma online_of_free (h : (update T u none t).any (·.online) = true) :
    (T t).any (·.online) = true := by
  by_cases htu : t = u
  · rw [htu, update_self] at h
    cases h
  · rwa [update_of_ne htu] at h

lemma ServedSince.assign (h : ServedSince old t D') (os : List Obs)
    (hx : D.transports u = some x) (hT : D'.transports = update D.transports u (some y))
    (hy : y.online = x.online) (htrace : D'.trace = os ++ D.trace)
    (hos : ∀ r a l rid, .stream r a l rid t ∉ os) : ServedSince old t D := by
  rcases h with h | ⟨r, a, l, rid, h, hnew⟩
  · rw [hT] at h
    exact .inl (online_of_assign hx hy h)
  · rw [htrace, List.mem_append] at h
    exact .inr ⟨r, a, l, rid, h.resolve_left (hos r a l rid), hnew⟩

lemma ServedSince.frame (h : ServedSince old t D') (os : List Obs)
    (hT : D'.transports = D.transports) (htrace : D'.trace = os ++ D.trace)
    (hos : ∀ r a l rid, .stream r a l rid t ∉ os) : ServedSince old t D := by
  rcases h with h | ⟨r, a, l, rid, h, hnew⟩
  · rw [hT] at h
    exact .inl h
  · rw [htrace, List.mem_append] at h
    exact .inr ⟨r, a, l, rid, h.resolve_left (hos r a l rid), hnew⟩

/-- Where keys are asked for, only the framework's `OK` makes a transport served. -/
theorem served_effect (he : Effect e D₀ m m') (hhost : m.d.config.host = false)
    (hauth : m.d.config.authEnabled = true) (h : ServedSince old t m'.d) :
    ServedSince old t m.d ∨ FrameworkOk e D₀ t := by
  have hnil : ∀ r a l rid, Obs.stream r a l rid t ∉ ([] : List Obs) := fun _ _ _ _ =>
    List.not_mem_nil
  cases he
  case note o ho =>
    refine .inl (h.frame [o] rfl rfl fun r a l rid hmem => ?_)
    rw [List.mem_singleton] at hmem
    rw [← hmem] at ho
    exact ho.elim
  case receive u x p rest hx hp hidle =>
    exact .inl (h.assign [_] hx rfl rfl rfl (by simp))
  case send via p u x hx hmay hopen habout hcmd hsync =>
    exact .inl (h.assign [_] hx rfl rfl rfl (by simp))
  case okay a r s q p u x ha hs hq hp hr hx hmay hopen howed hcmd hid hdest =>
    exact .inl (h.assign [_] hx rfl rfl rfl (by simp))
  case tweak u x x' hx htw =>
    have hon : x'.online = x.online := by rw [htw]
    exact .inl (h.assign [] hx rfl hon rfl hnil)
  case offline u x hx => exact .inl (h.assign [] hx rfl rfl rfl hnil)
  case down u x hx hidle =>
    exact .inl (h.imp_left (online_of_offline rfl))
  case up u x hx hserve hopen =>
    rw [hhost, hauth] at hopen
    cases hopen
  case verified u x hx hidle hok =>
    by_cases htu : t = u
    · exact .inr (htu ▸ hok)
    · refine .inl ?_
      rcases h with h | ⟨r, a, l, rid, h, hnew⟩
      · refine .inl ?_
        change (update m.d.transports u _ t).any _ = true at h
        rwa [update_of_ne htu] at h
      · exact .inr ⟨r, a, l, rid, (List.mem_cons.mp h).resolve_left (by simp), hnew⟩
  case banner u x text hx hserve =>
    obtain ⟨st, a, b, c, hb⟩ := parseBanner_eq text x
    exact .inl (h.assign [] hx rfl (by rw [hb]) rfl hnil)
  case destroy a s hs hfree => exact .inl (h.frame [_] rfl rfl (by simp))
  case dropRemote r s u x hs hr hops hu hx => exact .inl (h.assign [] hx rfl rfl rfl hnil)
  case retire a s i ev L hs ha hops hp hclosing hq hin hset hev hread =>
    exact .inl (h.frame [_] rfl rfl (by simp))
  case pair a s id u x hs hp hclosing hl hin hnew hx hserve honline opened hopened =>
    refine .inl ?_
    by_cases htu : t = u
    · refine .inl ?_
      rw [htu, hx, Option.any_some, honline]
    · refine h.assign ((if opened then [.opened m.d.nextAddr a] else []) ++
          [.stream m.d.nextAddr a s.id id u]) hx rfl rfl (by simp) fun r b l rid hmem => ?_
      cases opened <;> simp [htu] at hmem
  case enqueueDone a s bs ha hs hops hclosing hq howed hcause =>
    exact .inl (h.frame [_] rfl rfl (by simp))
  case enqueueLink a s p out ev L ha hs hops hclosing hout hin hset hev hread hcause hblock =>
    exact .inl (h.frame [_] rfl rfl (by simp))
  case drained a s ps out ha hs hops hbytes hlen hstuck hleft =>
    exact .inl (h.frame [_] rfl rfl (by simp))
  case flushed a s ev L ha hs hops hclosing hin hset hev hread hwrite hevents howed hcause hbef =>
    exact .inl (h.frame [_] rfl rfl (by simp))
  case wrteRead a r s q p u x ev L ha hs hops hp hto hin hset hev hread hwrite hevents hsub hb _ =>
    exact .inl (h.assign [_, _] hto.alive rfl rfl rfl (by simp))
  case wrteJdwp a r s q p u x ha hs hops hp hto hpass =>
    exact .inl (h.assign [_] hto.alive rfl rfl rfl (by simp))
  case wrteTracker a r s q p u x ha hs hops hp hto hneed =>
    exact .inl (h.assign [_] hto.alive rfl rfl rfl (by simp))
  case confirm u n p L M hp hcmd hn hfwd hhist hL hM =>
    exact .inl (h.frame [_] rfl rfl (by simp))
  case authDropped u L hrem => exact .inl (h.frame [_] rfl rfl (by simp))
  case connected n hn => exact .inl (h.frame [_] rfl rfl (by simp))
  case register x hx hown =>
    rcases h with h | ⟨r, a, l, rid, h, hnew⟩
    · exact .inl (.inl (online_of_offline (by rw [hx]) h))
    · exact .inl (.inr ⟨r, a, l, rid, (List.mem_cons.mp h).resolve_left (by simp), hnew⟩)
  case enlist u x rest hreg hx hstate =>
    exact .inl (h.assign [_] hx rfl rfl rfl (by simp))
  case start u x rest n k L M hreg hx hn hk hnk hL hM =>
    exact .inl (h.assign [_] hx rfl rfl rfl (by simp))
  case unplug u x rest L hreg hx hrem hsame hL own own' =>
    obtain ⟨os, htrace, hos⟩ := unplug_trace own own'
      (FlagWord.has (m.d.loop.mem (.transport u)).state fdeActive) m.d.trace
    refine .inl (h.frame os rfl htrace fun r a l rid hmem => ?_)
    rcases hos _ hmem with ⟨d, i, b, heq⟩ | heq <;> cases heq
  case freeTransport u x hidle hx hd hrem hhist hreg hin =>
    exact .inl (h.imp_left online_of_free)
  case output u x y L R os n hidle hx hact hstep =>
    refine .inl (h.assign os hx rfl (by rw [hstep.frame]) rfl fun r a l rid hmem => ?_)
    exact hstep.ofThread hmem
  case input u x y L R os n hidle hx hstart hstep =>
    refine .inl (h.assign os hx rfl (by rw [hstep.frame]) rfl fun r a l rid hmem => ?_)
    exact hstep.ofThread hmem
  case closedAll u x hidle hx hpc => exact .inl (h.assign [] hx rfl rfl rfl hnil)
  all_goals exact .inl h

end Changes

/-! ## Runs -/

section Runs

variable {e : Event} {D₀ D D' : Daemon} {t : TAddr} {config : Config} {fds : List ℕ}
  {inUse : ℕ → Bool} {es : List Event} {old : List Obs}

/-- The daemon asks for keys: it runs on a device, and authentication is on. -/
def AsksForKeys (D : Daemon) : Prop :=
  Wf { d := D } ∧ D.config.host = false ∧ D.config.authEnabled = true

lemma asksForKeys_step (h : AsksForKeys D) (hs : D.step e = .ok D') : AsksForKeys D' := by
  obtain ⟨hwf, hhost, hauth⟩ := h
  have hconfig : D'.config = D.config := config_of_path (path_of_step hwf hs)
  exact ⟨wf_of_step hwf hs, by rw [hconfig, hhost], by rw [hconfig, hauth]⟩

/-- A step that makes a transport served delivers the framework's `OK` for it. -/
theorem served_step (h : AsksForKeys D) (hs : D.step e = .ok D') (ht : ServedSince old t D') :
    ServedSince old t D ∨ FrameworkOk e D t := by
  refine before_of_step h.1 hs (fun m m' hpath _ he => served_effect he ?_ ?_) ht
  · rw [config_of_path hpath, h.2.1]
  · rw [config_of_path hpath, h.2.2]

/-- The framework's `OK` comes through the `auth_fde`. -/
lemma authLinked_of_frameworkOk (h : FrameworkOk e D t) : AuthLinked t D.loop := by
  obtain ⟨ev, rs, hdel, -, -⟩ := h
  exact OutgoingPath.authLinked_of_delivered hdel

/-- Where keys are asked for, a transport is online, or has had a stream, only after one step
forwarded a key of its host to the framework, and a later one delivered the framework's `OK`. -/
theorem served_by_key (hhost : config.host = false) (hauth : config.authEnabled = true)
    (hmain : adbMain config fds inUse = .ok D₀) (hrun : run Daemon.step es D₀ = .ok D)
    (ht : Served t D) :
    ∃ es₁ e₁ es₂ e₂ es₃ D₁ D₂, es = es₁ ++ e₁ :: es₂ ++ e₂ :: es₃ ∧
      run Daemon.step es₁ D₀ = .ok D₁ ∧ Forwards e₁ D₁ t ∧
      run Daemon.step (es₁ ++ e₁ :: es₂) D₀ = .ok D₂ ∧ FrameworkOk e₂ D₂ t := by
  have hwf := wf_adbMain hmain
  have hlinked : ¬AuthLinked t D₀.loop := OutgoingPath.not_authLinked hmain
  have hfirst : AsksForKeys D₀ ∧ ¬ServedSince [] t D₀ := by
    obtain ⟨L, O, I, rfl⟩ := adbMain_eq hmain
    refine ⟨⟨hwf, hhost, hauth⟩, ?_⟩
    rintro (h | ⟨r, a, l, rid, h, -⟩)
    · cases h
    · cases h
  rw [served_iff] at ht
  -- the answer comes first to mind, and the key is what was forwarded before it
  obtain ⟨es', e₂, es₃, D₂, rfl, hrun₂, hD₂, hok⟩ := exists_origin
    (fun _ _ _ h hs => asksForKeys_step h hs) (fun _ _ _ h hs ht => served_step h hs ht)
    hfirst.1 hfirst.2 hrun ht
  obtain ⟨es₁, e₁, es₂, D₁, rfl, hrun₁, -, hfwd⟩ := exists_origin (P := fun D => AuthLinked t D.loop)
    (fun _ _ _ h hs => asksForKeys_step h hs) (fun _ _ _ h hs ht => authLinked_step h.1 hs ht)
    hfirst.1 hlinked hrun₂ (authLinked_of_frameworkOk hok)
  exact ⟨es₁, e₁, es₂, e₂, es₃, D₁, D₂, rfl, hrun₁, hfwd, hrun₂, hok⟩

end Runs

/-! ## A run with a key -/

/-- The framework connects, a host sends its key, and the framework answers `OK`. -/
def confirmKey : List Event :=
  PeerLinks.handleNext 5 { fds := [20] } ++ PeerLinks.connect 0 10 11 12 ++
    PeerLinks.carry 0 11 (PeerLinks.packetOf aCnxn aVersion 4096 (str "host::" ++ [0])) {} ++
    PeerLinks.carry 0 11
      (PeerLinks.packetOf aAuth adbAuthRsapublickey 0 (str "key" ++ [0]))
      { writes := [.wrote 5] } ++
    PeerLinks.handleNext 20 { reads := [.data (str "OK")] }

/-- The theorem on that run. -/
theorem served_by_key_confirmed :
    ∃ D₀ D, adbMain {} [3, 4, 5, 6, 7, 8, 9] (fun _ => false) = .ok D₀ ∧
      run Daemon.step confirmKey D₀ = .ok D ∧ Served 0 D ∧
      ∃ es₁ e₁ es₂ e₂ es₃ D₁ D₂, confirmKey = es₁ ++ e₁ :: es₂ ++ e₂ :: es₃ ∧
        run Daemon.step es₁ D₀ = .ok D₁ ∧ Forwards e₁ D₁ 0 ∧
        run Daemon.step (es₁ ++ e₁ :: es₂) D₀ = .ok D₂ ∧ FrameworkOk e₂ D₂ 0 := by
  obtain ⟨D₀, D, hmain, hrun, honline⟩ := @exists_run Bool {} [3, 4, 5, 6, 7, 8, 9]
    (fun _ => false) confirmKey (fun D => (D.transports 0).any (·.online)) true (by decide +kernel)
  have ht : Served 0 D := .inl honline
  exact ⟨D₀, D, hmain, hrun, ht, served_by_key rfl rfl hmain hrun ht⟩

end Adbd.AuthGate
