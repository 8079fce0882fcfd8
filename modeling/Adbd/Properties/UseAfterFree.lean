import Adbd.Properties.AuthGate

/-!
# Freed transports

An `atransport` is freed with the `fdevent` that waits for the framework inside it.  Nothing takes
that `fdevent` out of the event loop when the transport goes, so the loop may be left with a pointer
into freed memory: it is followed as soon as the framework answers, or hangs up.

The theorem says that there is no other way to touch a freed transport, in any run: the key of the
host was forwarded, and the transport was removed before the answer came.
-/

namespace Adbd.UseAfterFree

open Function Relation Transition Daemon

variable {e : Event} {D₀ D D' : Daemon} {m m' : Moment} {t u : TAddr} {y : Atransport}
  {T : TAddr → Option Atransport} {es : List Event}

/-- The transport is gone, and something still refers to its `auth_fde`. -/
def Dangles (t : TAddr) (D : Daemon) : Prop :=
  D.transports t = none ∧ AuthLinked t D.loop

/-! ## What frees a transport -/

lemma gone_of_assign (h : update T u (some y) t = none) : T t = none := by
  by_cases htu : t = u
  · rw [htu, update_self] at h
    cases h
  · rwa [update_of_ne htu] at h

/-- A transport is freed by the step that removes it, with whatever refers to it. -/
lemma gone_effect (he : Effect e D₀ m m') (h : m'.d.transports t = none) :
    m.d.transports t = none ∨ Removes e D₀ t ∧ m'.d.loop = m.d.loop := by
  cases he
  case freeTransport u x hidle hx hd hrem hhist hreg hin =>
    by_cases htu : t = u
    · rw [htu]
      exact .inr ⟨hrem, rfl⟩
    · exact .inl ((update_of_ne htu none m.d.transports).symm.trans h)
  all_goals first
    | exact .inl h
    | exact .inl (gone_of_assign h)

/-- A transport whose packet is handled has not been freed. -/
lemma alive_of_serving (h : Wf m) (hserving : m.Serving t) : ∃ x, m.d.transports t = some x := by
  obtain ⟨p, hp, -⟩ := hserving
  exact (h.queue.served t p hp).2

lemma dangles_effect (he : Effect e D₀ m m') (hwf : Wf m) (h : Dangles t m'.d) :
    Dangles t m.d ∨ Removes e D₀ t ∧ AuthLinked t m.d.loop := by
  obtain ⟨hgone, hlinked⟩ := h
  rcases gone_effect he hgone with hgone' | ⟨hrem, hloop⟩
  · rcases he.authLinked_cases hwf hlinked with hlinked | ⟨hserving, -⟩
    · exact .inl ⟨hgone', hlinked⟩
    · obtain ⟨x, hx⟩ := alive_of_serving hwf hserving
      rw [hgone'] at hx
      cases hx
  · exact .inr ⟨hrem, hloop ▸ hlinked⟩

/-! ## Steps -/

/-- The step that removes a transport handles no packet. -/
lemma not_forwards (hrem : Removes e D t) : ¬Forwards e D u := by
  rintro ⟨p, key, ⟨ev, rs, x, rest, hdel, -⟩, -⟩
  obtain ⟨ev', rs', rest', hdel', -⟩ := hrem
  rw [hdel] at hdel'
  simp at hdel'

/-- The `auth_fde` a removed transport leaves behind was linked before the step. -/
lemma linked_before (hwf : Wf { d := D }) (hpath : ReflTransGen (Effect e D) { d := D } m)
    (hrem : Removes e D t) (h : AuthLinked t m.d.loop) : AuthLinked t D.loop := by
  refine (before_of_path (P := fun D => AuthLinked t D.loop) hwf hpath
    (fun _ _ _ hwf he hl => ?_) h).resolve_right (not_forwards hrem (u := t))
  exact (he.authLinked_cases hwf hl).imp_right And.right

/-- At every moment of a step: a dangling `auth_fde` was there before, or the step removes its
transport while the key of the host is out. -/
lemma dangles_of_path (hwf : Wf { d := D }) (hpath : ReflTransGen (Effect e D) { d := D } m)
    (h : Dangles t m.d) : Dangles t D ∨ Removes e D t ∧ AuthLinked t D.loop := by
  refine before_of_path hwf hpath (fun m m' hpath hwf' he h => ?_) h
  refine (dangles_effect he hwf' h).imp_right fun ⟨hrem, hlinked⟩ => ?_
  exact ⟨hrem, linked_before hwf hpath hrem hlinked⟩

/-! ## Runs -/

/-- A freed transport is touched only after one step forwarded a key of its host to the framework,
and a later one removed the transport while the event loop still waited for the answer. -/
theorem freed_after_key {config : Config} {fds : List ℕ} {inUse : ℕ → Bool}
    (hmain : adbMain config fds inUse = .ok D₀) (hrun : run Daemon.step es D₀ = .ok D)
    (hstop : D.step e = .error (.freedTransport t)) :
    ∃ es₁ e₁ es₂ e₂ es₃ D₁ D₂, es ++ [e] = es₁ ++ e₁ :: es₂ ++ e₂ :: es₃ ∧
      run Daemon.step es₁ D₀ = .ok D₁ ∧ Forwards e₁ D₁ t ∧
      run Daemon.step (es₁ ++ e₁ :: es₂) D₀ = .ok D₂ ∧ Removes e₂ D₂ t ∧
      AuthLinked t D₂.loop := by
  have hwf₀ := wf_adbMain hmain
  have hlinked₀ : ¬AuthLinked t D₀.loop := OutgoingPath.not_authLinked hmain
  have hwf : Wf { d := D } := wf_of_run hwf₀ hrun
  -- the step that removed the transport, be it this one or an earlier one
  have hremoved : ∃ es' e₂ es₃ D₂, es ++ [e] = es' ++ e₂ :: es₃ ∧
      run Daemon.step es' D₀ = .ok D₂ ∧ Removes e₂ D₂ t ∧ AuthLinked t D₂.loop := by
    obtain ⟨m, hpath, hm⟩ := stops_of_step hwf hstop
    rcases dangles_of_path hwf hpath hm with hdangles | ⟨hrem, hlinked⟩
    · obtain ⟨es', e₂, es₃, D₂, rfl, hrun₂, -, hrem, hlinked⟩ :=
        exists_origin (P := Dangles t) (fun _ _ _ hwf hs => wf_of_step hwf hs)
          (fun _ _ _ hwf hs h => dangles_of_path hwf (path_of_step hwf hs) h)
          hwf₀ (fun h => hlinked₀ h.2) hrun hdangles
      exact ⟨es', e₂, es₃ ++ [e], D₂, by simp, hrun₂, hrem, hlinked⟩
    · exact ⟨es, e, [], D, rfl, hrun, hrem, hlinked⟩
  obtain ⟨es', e₂, es₃, D₂, hes, hrun₂, hrem, hlinked⟩ := hremoved
  -- the step that linked the `fdevent`
  obtain ⟨es₁, e₁, es₂, D₁, rfl, hrun₁, -, hfwd⟩ := exists_origin (P := fun D => AuthLinked t D.loop)
    (fun _ _ _ hwf hs => wf_of_step hwf hs) (fun _ _ _ hwf hs h => authLinked_step hwf hs h)
    hwf₀ hlinked₀ hrun₂ hlinked
  exact ⟨es₁, e₁, es₂, e₂, es₃, D₁, D₂, hes, hrun₁, hfwd, hrun₂, hrem, hlinked⟩


/-! ## A run -/

/-- The framework connects, a host sends its key and hangs up, and its transport is removed. -/
def leavesKey : List Event :=
  PeerLinks.handleNext 5 { fds := [20] } ++ PeerLinks.connect 0 10 11 12 ++
    PeerLinks.carry 0 11 (PeerLinks.packetOf aAuth adbAuthRsapublickey 0 (str "key" ++ [0]))
      { writes := [.wrote 5] } ++
    List.replicate 6 ⟨.output 0, {}⟩ ++ PeerLinks.handleNext 11 {} ++ PeerLinks.handleNext 11 {} ++
    List.replicate 5 ⟨.input 0, {}⟩ ++ PeerLinks.handleNext 4 {}

/-- The framework has answered. -/
def answers : Event := ⟨.epollWait [(20, ⟨true, false, false⟩)], {}⟩

/-- The theorem on that run. -/
theorem freed_after_key_unplugged :
    ∃ D₀ D, adbMain {} [3, 4, 5, 6, 7, 8, 9] (fun _ => false) = .ok D₀ ∧
      run Daemon.step leavesKey D₀ = .ok D ∧ D.step answers = .error (.freedTransport 0) ∧
      ∃ es₁ e₁ es₂ e₂ es₃ D₁ D₂, leavesKey ++ [answers] = es₁ ++ e₁ :: es₂ ++ e₂ :: es₃ ∧
        run Daemon.step es₁ D₀ = .ok D₁ ∧ Forwards e₁ D₁ 0 ∧
        run Daemon.step (es₁ ++ e₁ :: es₂) D₀ = .ok D₂ ∧ Removes e₂ D₂ 0 ∧
        AuthLinked 0 D₂.loop := by
  obtain ⟨D₀, D, hmain, hrun, hstop⟩ := @exists_run (Option Stop) {} [3, 4, 5, 6, 7, 8, 9]
    (fun _ => false) leavesKey (fun D => match D.step answers with
      | .error r => some r
      | .ok _ => none) (some (.freedTransport 0)) (by decide +kernel)
  have hstop' : D.step answers = .error (.freedTransport 0) := by
    split at hstop
    case h_1 r hr => rw [hr, Option.some.inj hstop]
    case h_2 => cases hstop
  exact ⟨D₀, D, hmain, hrun, hstop', freed_after_key hmain hrun hstop'⟩

end Adbd.UseAfterFree
